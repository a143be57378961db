import Mathlib.Data.List.Basic
import SearchFilter.Conversion
/-!
# Chains of equations

The filter of a word under a path is a chain of equations in documents. Its names are free of the
separator and the last one is not empty unless it stands alone; every such chain comes from a field.
-/
namespace SearchFilter.Path

/-- Nested equations: every name but the last holds a document, the last one the text. -/
inductive Chain (text : String) : List String → Filter → Prop
  | single (name : String) : Chain text [name] (.eq name (.text text))
  | cons (name : String) {names : List String} {inner : Filter} (h : Chain text names inner) :
      Chain text (name :: names) (.eq name (.document inner))

/-- A chain whose names a field under this separator can have. -/
def IsChain (separator : Char) (filter : Filter) : Prop :=
  ∃ names text, Chain text names filter ∧ (∀ name ∈ names, separator ∉ name.toList) ∧
    (names.getLast? = some "" → names.length = 1)

theorem chain_nest (text : String) (segment : List Char) (others : List (List Char)) :
    Chain text ((segment :: others).map String.ofList) (nest text segment others) := by
  induction others generalizing segment with
  | nil => exact .single (String.ofList segment)
  | cons other others ih => exact .cons (String.ofList segment) (ih other)

theorem Chain.eq_nest {text first : String} {others : List String} {filter : Filter}
    (h : Chain text (first :: others) filter) :
    filter = nest text first.toList (others.map String.toList) := by
  induction others generalizing first filter with
  | nil =>
    cases h with
    | single => rw [List.map_nil, nest, String.ofList_toList]
    | cons _ h => cases h
  | cons other others ih =>
    cases h with
    | cons _ h => rw [List.map_cons, nest, String.ofList_toList, ← ih h]

theorem segments_of_not_mem {separator : Char} {name : List Char} (h : separator ∉ name) :
    segments separator name = (name, []) := by
  induction name with
  | nil => rfl
  | cons c cs ih =>
    have hc : c ≠ separator := fun hc => h (by simp [hc])
    have hcs : separator ∉ cs := fun hcs => h (List.mem_cons_of_mem _ hcs)
    simp only [segments, ih hcs, hc, ↓reduceIte]

theorem segments_append {separator : Char} {name : List Char} (h : separator ∉ name)
    (cs : List Char) :
    segments separator (name ++ separator :: cs) =
      (name, (segments separator cs).1 :: (segments separator cs).2) := by
  induction name with
  | nil => simp [segments]
  | cons c name ih =>
    have hc : c ≠ separator := fun hc => h (by simp [hc])
    have hname : separator ∉ name := fun hn => h (List.mem_cons_of_mem _ hn)
    simp only [List.cons_append, segments, ih hname, hc, ↓reduceIte]

theorem segments_intercalate {separator : Char} {first : List Char} {others : List (List Char)}
    (h : ∀ name ∈ first :: others, separator ∉ name) :
    segments separator (List.intercalate [separator] (first :: others)) = (first, others) := by
  induction others generalizing first with
  | nil =>
    rw [List.intercalate_singleton]
    exact segments_of_not_mem (h first List.mem_cons_self)
  | cons other others ih =>
    have hfirst := h first List.mem_cons_self
    have hothers := ih fun name hn => h name (List.mem_cons_of_mem _ hn)
    rw [List.intercalate_cons_cons, List.append_assoc, List.singleton_append,
      segments_append hfirst, hothers]

theorem not_mem_segments (separator : Char) (cs : List Char) :
    ∀ name ∈ (segments separator cs).1 :: (segments separator cs).2, separator ∉ name := by
  induction cs with
  | nil => simp [segments]
  | cons c cs ih =>
    simp only [List.forall_mem_cons] at ih
    by_cases hc : c = separator
    · simpa [segments, hc] using ih
    · simpa [segments, hc, Ne.symm hc] using ih

theorem mem_of_mem_dropTrailingEmpty {names : List (List Char)} {name : List Char}
    (h : name ∈ dropTrailingEmpty names) : name ∈ names := by
  have hrev := List.mem_reverse.mp h
  exact List.mem_reverse.mp ((List.dropWhile_sublist _).subset hrev)

theorem getLast?_dropTrailingEmpty (names : List (List Char)) :
    (dropTrailingEmpty names).getLast? ≠ some [] := by
  intro h
  rw [dropTrailingEmpty, List.getLast?_reverse] at h
  have hnot := List.head?_dropWhile_not List.isEmpty names.reverse
  rw [h] at hnot
  simp at hnot

theorem dropTrailingEmpty_of_getLast? {names : List (List Char)} (h : names.getLast? ≠ some []) :
    dropTrailingEmpty names = names := by
  rw [← List.head?_reverse] at h
  rw [dropTrailingEmpty]
  cases hrev : names.reverse with
  | nil => rw [List.dropWhile_nil, List.reverse_nil, ← List.reverse_eq_nil_iff.mp hrev]
  | cons last rest =>
    have hlast : last.isEmpty = false := by
      cases last with
      | nil => simp [hrev] at h
      | cons c cs => rfl
    rw [List.dropWhile_cons_of_neg (by simp [hlast]), ← hrev, List.reverse_reverse]

theorem filter_eq_nest (separator : Char) (field text : String) :
    filter separator field text = nest text (segments separator field.toList).1
      (dropTrailingEmpty (segments separator field.toList).2) := rfl

theorem not_mem_ofField (separator : Char) (field : String) :
    ∀ name ∈ (ofField separator field).1 :: (ofField separator field).2, separator ∉ name := by
  intro name hname
  apply not_mem_segments separator field.toList
  rcases List.mem_cons.mp hname with rfl | hother
  · exact List.mem_cons_self
  · exact List.mem_cons_of_mem _ (mem_of_mem_dropTrailingEmpty hother)

theorem filter_isChain (separator : Char) (field text : String) :
    IsChain separator (filter separator field text) := by
  rw [filter_eq_nest]
  refine ⟨_, text, chain_nest text _ _, ?_, ?_⟩
  · intro name hname
    obtain ⟨segment, hsegment, rfl⟩ := List.mem_map.mp hname
    rw [String.toList_ofList]
    exact not_mem_ofField separator field segment hsegment
  · intro hlast
    have hothers := getLast?_dropTrailingEmpty (segments separator field.toList).2
    rw [List.getLast?_map, Option.map_eq_some_iff] at hlast
    obtain ⟨last, hlast, hempty⟩ := hlast
    obtain rfl : last = [] := by simpa using congrArg String.toList hempty
    cases hofField : dropTrailingEmpty (segments separator field.toList).2 with
    | nil => rfl
    | cons other others =>
      rw [hofField, List.getLast?_cons_cons] at hlast
      rw [hofField] at hothers
      exact absurd hlast hothers

/-- Every chain is the filter of a word under some field. -/
theorem IsChain.exists_filter {separator : Char} {f : Filter} (h : IsChain separator f) :
    ∃ field text, filter separator field text = f := by
  obtain ⟨names, text, hchain, hfree, hlast⟩ := h
  cases names with
  | nil => cases hchain
  | cons first others =>
    have hsegments : segments separator
        (List.intercalate [separator] (first.toList :: others.map String.toList)) =
          (first.toList, others.map String.toList) :=
      segments_intercalate (by simpa using hfree)
    have hothers : (others.map String.toList).getLast? ≠ some [] := by
      intro hempty
      rw [List.getLast?_map, Option.map_eq_some_iff] at hempty
      obtain ⟨last, hget, hnil⟩ := hempty
      obtain rfl : last = "" := String.toList_eq_nil_iff.mp hnil
      cases others with
      | nil => simp at hget
      | cons other others => simpa using hlast (by rwa [List.getLast?_cons_cons])
    refine ⟨String.ofList (List.intercalate [separator] (first.toList :: others.map String.toList)),
      text, ?_⟩
    rw [filter_eq_nest, String.toList_ofList, hsegments, dropTrailingEmpty_of_getLast? hothers]
    exact hchain.eq_nest.symm

end SearchFilter.Path
