import SearchFilter.Conversion
import SearchFilter.Proofs.Encoding.Regex
/-!
# Wildcards

What wildcard patterns match, and the proof that their regular expressions match the same texts of
one line. Characters with a meaning in regular expressions are not escaped, so they must not be in
the pattern.
-/
namespace SearchFilter

namespace Wildcard

/-- Matches of whole texts: a star stands for any characters, a question mark for one. -/
inductive Matches : List Char → List Char → Prop
  | nil : Matches [] []
  | star (front : List Char) {pattern text : List Char} (h : Matches pattern text) :
      Matches ('*' :: pattern) (front ++ text)
  | question (c : Char) {pattern text : List Char} (h : Matches pattern text) :
      Matches ('?' :: pattern) (c :: text)
  | literal {c : Char} (hstar : c ≠ '*') (hquestion : c ≠ '?') {pattern text : List Char}
      (h : Matches pattern text) : Matches (c :: pattern) (c :: text)

variable {pattern text : List Char}

theorem matches_nil : Matches [] text ↔ text = [] := by
  constructor
  · rintro ⟨⟩
    rfl
  · rintro rfl
    exact .nil

theorem matches_star :
    Matches ('*' :: pattern) text ↔ ∃ front back, front ++ back = text ∧ Matches pattern back := by
  constructor
  · intro h
    cases h with
    | star front h => exact ⟨front, _, rfl, h⟩
    | literal hstar => exact absurd rfl hstar
  · rintro ⟨front, back, rfl, h⟩
    exact .star front h

theorem matches_question :
    Matches ('?' :: pattern) text ↔ ∃ c back, c :: back = text ∧ Matches pattern back := by
  constructor
  · intro h
    cases h with
    | question c h => exact ⟨c, _, rfl, h⟩
    | literal _ hquestion => exact absurd rfl hquestion
  · rintro ⟨c, back, rfl, h⟩
    exact .question c h

theorem matches_literal {c : Char} (hstar : c ≠ '*') (hquestion : c ≠ '?') :
    Matches (c :: pattern) text ↔ ∃ back, c :: back = text ∧ Matches pattern back := by
  constructor
  · intro h
    cases h with
    | star => exact absurd rfl hstar
    | question => exact absurd rfl hquestion
    | literal _ _ h => exact ⟨_, rfl, h⟩
  · rintro ⟨back, rfl, h⟩
    exact .literal hstar hquestion h

theorem Matches.append {front back text' : List Char} (hfront : Matches front text)
    (hback : Matches back text') : Matches (front ++ back) (text ++ text') := by
  induction hfront with
  | nil => exact hback
  | star run _ ih =>
    rw [List.append_assoc]
    exact .star run ih
  | question c _ ih => exact .question c ih
  | literal hstar hquestion _ ih => exact .literal hstar hquestion ih

theorem exists_of_matches_append {front back : List Char} (h : Matches (front ++ back) text) :
    ∃ text' rest, text' ++ rest = text ∧ Matches front text' ∧ Matches back rest := by
  induction front generalizing text with
  | nil => exact ⟨[], text, rfl, .nil, h⟩
  | cons c front ih =>
    cases h with
    | star run h =>
      obtain ⟨text', rest, rfl, hfront, hback⟩ := ih h
      exact ⟨run ++ text', rest, List.append_assoc run text' rest, .star run hfront, hback⟩
    | question d h =>
      obtain ⟨text', rest, rfl, hfront, hback⟩ := ih h
      exact ⟨d :: text', rest, rfl, .question d hfront, hback⟩
    | literal hstar hquestion h =>
      obtain ⟨text', rest, rfl, hfront, hback⟩ := ih h
      exact ⟨c :: text', rest, rfl, .literal hstar hquestion hfront, hback⟩

theorem matches_append_star :
    Matches (pattern ++ ['*']) text ↔ ∃ front, front <+: text ∧ Matches pattern front := by
  constructor
  · intro h
    obtain ⟨front, rest, rfl, hfront, -⟩ := exists_of_matches_append h
    exact ⟨front, List.prefix_append front rest, hfront⟩
  · rintro ⟨front, ⟨rest, rfl⟩, h⟩
    have hrest : Matches ['*'] rest := matches_star.mpr ⟨rest, [], List.append_nil rest, .nil⟩
    exact h.append hrest

end Wildcard

namespace Regex

def wildcardItem : Char → Item
  | '*' => ⟨.any, .repeated false⟩
  | '?' => ⟨.any, .once⟩
  | c => ⟨.literal c, .once⟩

theorem wildcardItem_of_ne {c : Char} (hstar : c ≠ '*') (hquestion : c ≠ '?') :
    wildcardItem c = ⟨.literal c, .once⟩ := by
  unfold wildcardItem
  split <;> simp_all

theorem readBehind?_wildcard {pattern : List Char} (plain : ∀ c ∈ pattern, c ∉ reserved)
    (last? : Option Item) :
    readBehind? last? (pattern.flatMap Pattern.wildcardChar) =
      some (last?.toList ++ pattern.map wildcardItem) := by
  -- the item read last is still open when the next character is read, so it stays general
  induction pattern generalizing last? with
  | nil => simp [readBehind?]
  | cons c pattern ih =>
    have hc := plain c List.mem_cons_self
    have ih := ih fun d hd => plain d (List.mem_cons_of_mem c hd)
    rw [List.flatMap_cons, List.map_cons]
    by_cases hstar : c = '*'
    · subst hstar
      simp [Pattern.wildcardChar, wildcardItem, readBehind?, ih, Quantifier.star?]
    by_cases hquestion : c = '?'
    · subst hquestion
      simp [Pattern.wildcardChar, wildcardItem, readBehind?, ih]
    · have hchar : Pattern.wildcardChar c = [c] := by
        unfold Pattern.wildcardChar
        split <;> simp_all
      rw [hchar, List.singleton_append, readBehind?_literal hstar hquestion hc, ih, Option.map_some,
        Option.toList_some, List.singleton_append, wildcardItem_of_ne hstar hquestion]

/-- On texts of one line the expression of a wildcard pattern matches as the pattern does. -/
theorem mem_language_wildcard {pattern text : List Char} (hline : '\n' ∉ text) :
    text ∈ language (pattern.map wildcardItem) ↔ Wildcard.Matches pattern text := by
  induction pattern generalizing text with
  | nil => rw [List.map_nil, mem_language_nil, Wildcard.matches_nil]
  | cons c pattern ih =>
    rw [List.map_cons, mem_language_cons]
    by_cases hstar : c = '*'
    · subst hstar
      rw [Wildcard.matches_star]
      refine exists_congr fun front => exists_congr fun back => and_congr_right ?_
      rintro rfl
      rw [List.mem_append, not_or] at hline
      rw [← ih hline.2]
      exact and_iff_right (mem_kstar_any.mpr hline.1)
    by_cases hquestion : c = '?'
    · subst hquestion
      rw [Wildcard.matches_question]
      constructor
      · rintro ⟨_, back, rfl, ⟨d, -, rfl⟩, hback⟩
        rw [List.mem_append, not_or] at hline
        exact ⟨d, back, rfl, (ih hline.2).mp hback⟩
      · rintro ⟨d, back, rfl, hback⟩
        rw [List.mem_cons, not_or] at hline
        exact ⟨[d], back, rfl, ⟨d, Ne.symm hline.1, rfl⟩, (ih hline.2).mpr hback⟩
    · rw [Wildcard.matches_literal hstar hquestion, wildcardItem_of_ne hstar hquestion]
      constructor
      · rintro ⟨_, back, rfl, rfl, hback⟩
        rw [List.mem_append, not_or] at hline
        exact ⟨back, rfl, (ih hline.2).mp hback⟩
      · rintro ⟨back, rfl, hback⟩
        rw [List.mem_cons, not_or] at hline
        exact ⟨[c], back, rfl, rfl, (ih hline.2).mpr hback⟩

theorem describes_wildcard {pattern : String} (plain : ∀ c ∈ pattern.toList, c ∉ reserved) :
    Describes (Pattern.wildcard pattern) (Wildcard.Matches pattern.toList) := by
  refine ⟨pattern.toList.map wildcardItem, ?_, fun text hline => mem_language_wildcard hline⟩
  rw [read?, Pattern.wildcard, String.toList_ofList, readBehind?_wildcard plain]
  rfl

example : read? (Pattern.wildcard "a*?b") = some [⟨.literal 'a', .once⟩, ⟨.any, .repeated false⟩,
    ⟨.any, .once⟩, ⟨.literal 'b', .once⟩] := by decide

end Regex

/-- If no character of a wildcard pattern has a meaning in expressions but its stars and question
marks, then its expression matches the same whole texts of one line as the pattern, and the
expression of a start the texts that begin with a match of it. -/
theorem Query.toFilter_wildcard_describes (settings : Settings) (field pattern : String)
    (plain : ∀ c ∈ pattern.toList, c ∉ Regex.reserved) :
    ((leaf (.wildcard field pattern)).toFilter settings).result =
        .ok (.regex field (Pattern.wildcard pattern)) ∧
    Regex.Describes (Pattern.wildcard pattern) (Wildcard.Matches pattern.toList) ∧
    ∃ source,
      ((leaf (.startsWith field pattern)).toFilter settings).result = .ok (.regex field source) ∧
      Regex.Describes source fun text =>
        ∃ front, front <+: text ∧ Wildcard.Matches pattern.toList front := by
  refine ⟨rfl, Regex.describes_wildcard plain, _, rfl, ?_⟩
  have hplain : ∀ c ∈ (pattern.push '*').toList, c ∉ Regex.reserved := by
    rw [String.toList_push]
    intro c hc
    rcases List.mem_append.mp hc with hc | hc
    · exact plain c hc
    · rw [List.mem_singleton.mp hc]
      decide
  obtain ⟨items, hread, hitems⟩ := Regex.describes_wildcard hplain
  refine ⟨items, hread, fun text hline => ?_⟩
  rw [hitems text hline, String.toList_push]
  exact Wildcard.matches_append_star

/-- A star in front of a question mark, and one behind a letter. -/
theorem Query.toFilter_wildcard_describes_adjacent :
    (∀ c ∈ "a*?b*".toList, c ∉ Regex.reserved) ∧
    ((leaf (.wildcard "title" "a*?b*")).toFilter ⟨"_id", '.'⟩).result =
        .ok (.regex "title" (Pattern.wildcard "a*?b*")) ∧
    Regex.Describes (Pattern.wildcard "a*?b*") (Wildcard.Matches "a*?b*".toList) ∧
    ∃ source,
      ((leaf (.startsWith "title" "a*?b*")).toFilter ⟨"_id", '.'⟩).result =
        .ok (.regex "title" source) ∧
      Regex.Describes source fun text =>
        ∃ front, front <+: text ∧ Wildcard.Matches "a*?b*".toList front := by
  have hplain : ∀ c ∈ "a*?b*".toList, c ∉ Regex.reserved := by simp [Regex.reserved]
  exact ⟨hplain, toFilter_wildcard_describes ⟨"_id", '.'⟩ "title" "a*?b*" hplain⟩

end SearchFilter
