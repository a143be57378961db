import Mathlib.Data.List.DropRight
import SearchFilter.Proofs.Conversion.Path
import SearchFilter.Proofs.Conversion.Result
/-!
# Fields of phrases

The filter of a word of a phrase keeps its text and its field, the latter up to the separators at
its end: the names in the filter are the segments of what is left of the field without these.
-/
namespace SearchFilter

namespace Path

/-- A field without the separators at its end. -/
def withoutTrailing (separator : Char) (field : String) : String :=
  String.ofList (field.toList.rdropWhile (· = separator))

theorem intercalate_concat (separator : Char) (first : List Char) (others : List (List Char))
    (last : List Char) :
    List.intercalate [separator] (first :: (others ++ [last])) =
      List.intercalate [separator] (first :: others) ++ separator :: last := by
  induction others generalizing first with
  | nil => simp
  | cons other others ih => simp [ih]

theorem intercalate_segments (separator : Char) (cs : List Char) :
    List.intercalate [separator] ((segments separator cs).1 :: (segments separator cs).2) = cs := by
  induction cs with
  | nil => simp [segments]
  | cons c cs ih =>
    by_cases hc : c = separator
    · simp [segments, hc, ih]
    · rw [segments]
      cases hothers : (segments separator cs).2 with
      | nil => simp_all
      | cons other others => simp_all

private theorem rdropWhile_append {separator : Char} {name : List Char} (hne : name ≠ [])
    (h : separator ∉ name) (cs : List Char) :
    (cs ++ name).rdropWhile (· = separator) = cs ++ name := by
  rw [List.rdropWhile_eq_self_iff]
  intro hne' hlast
  rw [List.getLast_append_of_ne_nil hne' hne] at hlast
  exact h (of_decide_eq_true hlast ▸ List.getLast_mem hne)

theorem intercalate_dropTrailingEmpty {separator : Char} {first : List Char}
    {others : List (List Char)} (h : ∀ name ∈ first :: others, separator ∉ name) :
    List.intercalate [separator] (first :: dropTrailingEmpty others) =
      (List.intercalate [separator] (first :: others)).rdropWhile (· = separator) := by
  -- both sides drop from the end: an empty last name there is a separator behind the other names
  induction others using List.reverseRecOn with
  | nil =>
    have hnone : dropTrailingEmpty [] = [] := rfl
    rw [hnone, List.intercalate_singleton]
    by_cases hempty : first = []
    · rw [hempty, List.rdropWhile_nil]
    · exact (rdropWhile_append hempty (h first List.mem_cons_self) []).symm
  | append_singleton others last ih =>
    rw [intercalate_concat]
    by_cases hempty : last = []
    · subst hempty
      have hdropped : dropTrailingEmpty (others ++ [[]]) = dropTrailingEmpty others :=
        List.rdropWhile_concat_pos List.isEmpty others [] rfl
      have hothers : ∀ name ∈ first :: others, separator ∉ name := by
        intro name hname
        rw [← List.cons_append] at h
        exact h name (List.mem_append_left _ hname)
      rw [hdropped, ih hothers, List.rdropWhile_concat_pos (· = separator) _ _ (decide_eq_true rfl)]
    · have hkept : dropTrailingEmpty (others ++ [last]) = others ++ [last] :=
        List.rdropWhile_concat_neg List.isEmpty others last (by simpa using hempty)
      have hfree : separator ∉ last := h last (by simp)
      rw [hkept, intercalate_concat, List.append_cons, rdropWhile_append hempty hfree]

theorem intercalate_ofField (separator : Char) (field : String) :
    List.intercalate [separator] ((ofField separator field).1 :: (ofField separator field).2) =
      (withoutTrailing separator field).toList := by
  have hjoined := intercalate_dropTrailingEmpty (not_mem_segments separator field.toList)
  rw [intercalate_segments] at hjoined
  rw [withoutTrailing, String.toList_ofList, ← hjoined]
  rfl

theorem ofField_eq_segments (separator : Char) (field : String) :
    ofField separator field = segments separator (withoutTrailing separator field).toList := by
  rw [← intercalate_ofField, segments_intercalate (not_mem_ofField separator field)]

/-- The names in the filter of a word under a field. -/
def names (separator : Char) (field : String) : List String :=
  ((ofField separator field).1 :: (ofField separator field).2).map String.ofList

theorem filter_chain (separator : Char) (field text : String) :
    Chain text (names separator field) (filter separator field text) :=
  chain_nest text _ _

theorem not_mem_names (separator : Char) (field : String) :
    ∀ name ∈ names separator field, separator ∉ name.toList := by
  intro name hname
  obtain ⟨segment, hsegment, rfl⟩ := List.mem_map.mp hname
  rw [String.toList_ofList]
  exact not_mem_ofField separator field segment hsegment

theorem intercalate_names (separator : Char) (field : String) :
    String.intercalate (String.singleton separator) (names separator field) =
      withoutTrailing separator field := by
  have hnames : (names separator field).map String.toList =
      (ofField separator field).1 :: (ofField separator field).2 := by
    simp [names, Function.comp_def]
  rw [← String.toList_inj, String.toList_intercalate, hnames, String.toList_singleton,
    intercalate_ofField]

example : names '.' ".a..b.." = ["", "a", "", "b"] := by decide

theorem Chain.unique {text text' : String} {names names' : List String} {filter : Filter}
    (h : Chain text names filter) (h' : Chain text' names' filter) :
    text = text' ∧ names = names' := by
  induction h generalizing names' with
  | single name =>
    cases h' with
    | single => exact ⟨rfl, rfl⟩
  | cons name _ ih =>
    cases h' with
    | cons _ h' =>
      obtain ⟨rfl, rfl⟩ := ih h'
      exact ⟨rfl, rfl⟩

theorem withoutTrailing_eq_empty {separator : Char} {field : String}
    (h : (names separator field).getLast? = some "") : withoutTrailing separator field = "" := by
  obtain ⟨_, _, hchain, -, hlast⟩ := filter_isChain separator field ""
  obtain ⟨-, rfl⟩ := (filter_chain separator field "").unique hchain
  obtain ⟨name, hname⟩ := List.length_eq_one_iff.mp (hlast h)
  obtain rfl : name = "" := by simpa [hname] using h
  rw [← intercalate_names, hname, String.intercalate_singleton]

/-- Words have the same filter exactly when they have the same text, and the same field up to the
separators at its end. -/
theorem filter_eq_iff (separator : Char) (field text field' text' : String) :
    filter separator field text = filter separator field' text' ↔
      text = text' ∧ withoutTrailing separator field = withoutTrailing separator field' := by
  constructor
  · intro h
    obtain ⟨htext, hnames⟩ :=
      (filter_chain separator field text).unique (h ▸ filter_chain separator field' text')
    refine ⟨htext, ?_⟩
    rw [← intercalate_names, ← intercalate_names, hnames]
  · rintro ⟨rfl, h⟩
    rw [filter, filter, ofField_eq_segments, ofField_eq_segments, h]

end Path

open SearchFilter.Path

/-- A phrase becomes a chain of equations for every word. The names in a chain are free of the
separator, joined they are the field without the separators at its end, and the last one is empty
only if nothing else is left. Phrases have the same filter exactly when their words have the same
texts, and the same fields without the separators at the end. -/
theorem Query.toFilter_phrase_paths (settings : Settings) :
    (∀ words, ∃ children,
      ((leaf (.phrase words)).toFilter settings).result = .ok (.all children) ∧
      List.Forall₂ (fun w child => ∃ names, names ≠ [] ∧ Chain w.text names child ∧
        (∀ name ∈ names, settings.separator ∉ name.toList) ∧
        String.intercalate (String.singleton settings.separator) names =
          withoutTrailing settings.separator w.field ∧
        (names.getLast? = some "" →
          String.intercalate (String.singleton settings.separator) names = ""))
        words children) ∧
    (∀ words words', ((leaf (.phrase words)).toFilter settings).result =
        ((leaf (.phrase words')).toFilter settings).result ↔
      List.Forall₂ (fun w w' => w.text = w'.text ∧
        withoutTrailing settings.separator w.field = withoutTrailing settings.separator w'.field)
        words words') := by
  refine ⟨fun words => ⟨_, rfl, ?_⟩, fun words words' => ?_⟩
  · rw [List.forall₂_map_right_iff, List.forall₂_same]
    intro w _
    refine ⟨names settings.separator w.field, List.cons_ne_nil _ _, filter_chain _ _ _,
      not_mem_names _ _, intercalate_names _ _, ?_⟩
    intro hlast
    rw [intercalate_names, withoutTrailing_eq_empty hlast]
  · change Except.ok (Filter.all (words.map fun w => filter settings.separator w.field w.text)) =
      .ok (.all (words'.map fun w => filter settings.separator w.field w.text)) ↔ _
    rw [Except.ok.injEq, Filter.combine.injEq, eq_self_iff_true, true_and, ← List.forall₂_eq_eq_eq,
      List.forall₂_map_left_iff, List.forall₂_map_right_iff]
    simp only [filter_eq_iff]

end SearchFilter
