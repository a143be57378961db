import SearchFilter.Config
import SearchFilter.Proofs.Conversion.Phrase
import SearchFilter.Proofs.Conversion.Result
import SearchFilter.Proofs.Query.Tree
/-!
# Conversions under two configurations

A configuration shows in the filter of a query only if the query is a phrase or asks for everything.
In a phrase the separator shows exactly when it stands in the field of some word.
-/
namespace SearchFilter

namespace Path

theorem segments_fst (separator : Char) (cs : List Char) :
    (segments separator cs).1 = cs.takeWhile (· ≠ separator) := by
  induction cs with
  | nil => rfl
  | cons c cs ih =>
    by_cases hc : c = separator
    · simp [segments, hc]
    · simp [segments, hc, ih]

theorem not_mem_of_takeWhile_eq {separator other : Char} {cs : List Char} (hne : separator ≠ other)
    (h : cs.takeWhile (· ≠ separator) = cs.takeWhile (· ≠ other)) :
    separator ∉ cs ∧ other ∉ cs := by
  have hrest : cs.dropWhile (· ≠ separator) = cs.dropWhile (· ≠ other) := by
    have hfirst : cs.takeWhile (· ≠ separator) ++ cs.dropWhile (· ≠ separator) = cs :=
      List.takeWhile_append_dropWhile
    have hsecond : cs.takeWhile (· ≠ other) ++ cs.dropWhile (· ≠ other) = cs :=
      List.takeWhile_append_dropWhile
    rw [← h] at hsecond
    exact List.append_cancel_left (hfirst.trans hsecond.symm)
  have hstops (c d : Char) (h : (cs.dropWhile (· ≠ c)).head? = some d) : d = c := by
    have hnot := List.head?_dropWhile_not (· ≠ c) cs
    rw [h] at hnot
    simpa using hnot
  cases hhead : (cs.dropWhile (· ≠ separator)).head? with
  | some d =>
    -- the first character behind the front is both of them
    have hfirst := hstops separator d hhead
    rw [hrest] at hhead
    exact absurd (hfirst.symm.trans (hstops other d hhead)) hne
  | none =>
    have habsent (c : Char) (h : cs.dropWhile (· ≠ c) = []) : c ∉ cs := by
      intro hmem
      simpa using List.dropWhile_eq_nil_iff.mp h c hmem
    rw [List.head?_eq_none_iff] at hhead
    exact ⟨habsent separator hhead, habsent other (hrest ▸ hhead)⟩

theorem filter_of_not_mem {separator : Char} {field : String} (h : separator ∉ field.toList)
    (text : String) : filter separator field text = .eq field (.text text) := by
  rw [filter_eq_nest, segments_of_not_mem h]
  exact congrArg (Filter.eq · (.text text)) (String.ofList_toList)

/-- Two separators give a word the same filter exactly when the field has neither. -/
theorem filter_eq_iff_of_ne {separator other : Char} (hne : separator ≠ other)
    (field text : String) :
    filter separator field text = filter other field text ↔
      separator ∉ field.toList ∧ other ∉ field.toList := by
  constructor
  · intro h
    obtain ⟨-, hnames⟩ :=
      (filter_chain separator field text).unique (h ▸ filter_chain other field text)
    -- the first name is the front of the field up to the separator
    have hfirst := congrArg List.head? hnames
    simp only [names, ofField, List.map_cons, List.head?_cons, Option.some.injEq,
      String.ofList_inj, segments_fst] at hfirst
    exact not_mem_of_takeWhile_eq hne hfirst
  · rintro ⟨hseparator, hother⟩
    rw [filter_of_not_mem hseparator, filter_of_not_mem hother]

end Path

namespace Conversion

variable (settings other : Settings)

theorem clauseLeaf_eq_clauseLeaf (occurrence : Occurrence) (l : Leaf) :
    clauseLeaf settings occurrence l = clauseLeaf other occurrence l := by
  cases l <;> rfl

private theorem clauses_eq_clauses_of_each {scope : Scope} {inner : List (Clause Query)}
    (each : ∀ c ∈ inner, clause settings scope c.occurrence c.query =
      clause other scope c.occurrence c.query) :
    clauses settings scope inner = clauses other scope inner := by
  induction inner with
  | nil => rfl
  | cons c rest ih =>
    rw [List.forall_mem_cons] at each
    rw [clauses_cons, clauses_cons, each.1, ih each.2]

/-- No setting reaches a clause, however deep it stands. -/
theorem clause_eq_clause (query : Query) (scope : Scope) (own : Occurrence) :
    clause settings scope own query = clause other scope own query := by
  induction query generalizing scope own with
  | leaf l => exact clauseLeaf_eq_clauseLeaf settings other (scope.governing own) l
  | boolean inner ih =>
    have heach : ∀ c ∈ inner, clause settings (.clause own) c.occurrence c.query =
        clause other (.clause own) c.occurrence c.query := fun c hc => ih c hc _ _
    rw [clause, clause, clauses_eq_clauses_of_each settings other heach]

theorem root_boolean_eq_root (inner : List (Clause Query)) :
    root settings (.boolean inner) = root other (.boolean inner) := by
  have heach : ∀ c ∈ inner, clause settings .root c.occurrence c.query =
      clause other .root c.occurrence c.query := fun c _ => clause_eq_clause settings other _ _ _
  rw [root, root, clauses_eq_clauses_of_each settings other heach]

end Conversion

/-- Two configurations give a query the same filter or the same rejection, except in two cases: a
query for everything shows the name of the field, and a phrase shows separators that stand in the
field of one of its words. -/
theorem Query.toFilter_eq_iff_configs (config other : Config) (query : Query) :
    (query.toFilter config.settings).result = (query.toFilter other.settings).result ↔
      match query with
      | .leaf .matchAll => config.matchAllField = other.matchAllField
      | .leaf (.phrase words) =>
        config.separator = other.separator ∨
          ∀ w ∈ words, config.separator ∉ w.field.toList ∧ other.separator ∉ w.field.toList
      | _ => True := by
  cases query with
  | boolean clauses =>
    apply iff_true_intro
    rw [Conversion.toFilter_result, Conversion.toFilter_result,
      Conversion.root_boolean_eq_root config.settings other.settings]
  | leaf l =>
    cases l with
    | matchAll =>
      change Except.ok (Filter.present config.matchAllField) =
        .ok (.present other.matchAllField) ↔ _
      rw [Except.ok.injEq, Filter.present.injEq]
    | phrase words =>
      change Except.ok (Filter.all (words.map fun w =>
          Path.filter config.separator w.field w.text)) =
        .ok (.all (words.map fun w => Path.filter other.separator w.field w.text)) ↔ _
      rw [Except.ok.injEq, Filter.combine.injEq, eq_self_iff_true, true_and, List.map_inj_left]
      by_cases hsame : config.separator = other.separator
      · simp [hsame]
      · simp only [hsame, false_or, Path.filter_eq_iff_of_ne hsame]
    | _ => exact iff_true_intro rfl

end SearchFilter
