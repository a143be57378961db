import SearchFilter.Proofs.Conversion.Obstacle
/-!
# Which occurrences a filter shows

Two queries that differ in occurrences alone are rejected alike. If they are accepted, their filters
are equal exactly when every leaf with words is governed by required clauses in both queries or in
neither. No other occurrence shows in a filter.
-/
namespace SearchFilter

open Conversion

/-- A leaf whose filter is not the same under all occurrences: it compares with a word. -/
def Leaf.ShowsOccurrence : Leaf → Prop
  | term .. => True
  | phrase words => words ≠ []
  | _ => False

/-- Whether two queries of the shape of `query` require the same leaves with words, by the
occurrences that count at its paths in the one and in the other. -/
def Query.AgreeOn (first second : List Nat → Option Occurrence) (query : Query) : Prop :=
  ∀ path l, query.at? path = some (.leaf l) → l.ShowsOccurrence →
    (first path = some .required ↔ second path = some .required)

namespace Query

theorem agreeOn_leaf {first second : List Nat → Option Occurrence} {l : Leaf} :
    AgreeOn first second (leaf l) ↔
      (l.ShowsOccurrence →
        (first [] = some .required ↔ second [] = some .required)) := by
  constructor
  · intro h
    exact h [] l rfl
  · intro h path l' hp
    cases path with
    | nil =>
      obtain rfl : l = l' := by simpa [at?] using hp
      exact h
    | cons i path => simp [at?, Query.clauses] at hp

theorem agreeOn_boolean {first second : List Nat → Option Occurrence}
    {clauses : List (Clause Query)} :
    AgreeOn first second (boolean clauses) ↔
      ∀ (i : Nat) (c : Clause Query), clauses[i]? = some c →
        AgreeOn (fun path => first (i :: path)) (fun path => second (i :: path)) c.query := by
  constructor
  · intro h i c hc path l hp
    apply h (i :: path) l
    exact Option.bind_eq_some_iff.mpr ⟨c, hc, hp⟩
  · intro h path l hp
    cases path with
    | nil => simp [at?] at hp
    | cons i path =>
      obtain ⟨c, hc, hp⟩ := Option.bind_eq_some_iff.mp hp
      exact h i c hc path l hp

end Query

open Query

namespace Conversion

variable {settings : Settings}

/-- The filter of a leaf shows whether the occurrence is required, if the leaf has words. -/
theorem rendering_eq_iff {l : Leaf} {first second : Occurrence} {filter filter' : Filter}
    (h : l.rendering? first = some filter) (h' : l.rendering? second = some filter') :
    filter = filter' ↔ (l.ShowsOccurrence → (first = .required ↔ second = .required)) := by
  rw [← Option.some.injEq, ← h, ← h']
  cases l with
  | term field text =>
    cases first <;> cases second <;>
      simp [Leaf.rendering?, Leaf.ShowsOccurrence]
  | phrase words =>
    cases words <;> cases first <;> cases second <;>
      simp [Leaf.rendering?, Leaf.ShowsOccurrence]
  | numericRange field lower upper => simp [Leaf.rendering?, Leaf.ShowsOccurrence]
  | textRange field lower upper => simp [rendering?_textRange, Leaf.ShowsOccurrence]
  | _ => simp [Leaf.rendering?] at h

/-- What has to be shown for every clause: its filter is the same as that of a clause that differs
from it in occurrences alone exactly when they require the same leaves with words. -/
private def EqualIffAgree (settings : Settings) (query : Query) : Prop :=
  ∀ (query' : Query) (scope scope' : Scope) (own own' : Occurrence) (filter filter' : Filter),
    query'.unmarked = query.unmarked →
    (clause settings scope own query).result = .ok filter →
    (clause settings scope' own' query').result = .ok filter' →
    (filter = filter' ↔
      AgreeOn (governing? scope own query) (governing? scope' own' query') query)

private theorem clauses_eq_iff {first second : List Nat → Option Occurrence}
    {scope scope' : Scope} {inner inner' : List (Clause Query)}
    (hfirst : ∀ (i : Nat) (c : Clause Query), inner[i]? = some c →
      (fun path => first (i :: path)) = governing? scope c.occurrence c.query)
    (hsecond : ∀ (i : Nat) (c : Clause Query), inner'[i]? = some c →
      (fun path => second (i :: path)) = governing? scope' c.occurrence c.query)
    (each : ∀ c ∈ inner, EqualIffAgree settings c.query)
    (same : unmarkedClauses inner' = unmarkedClauses inner) {filters filters' : List Filter}
    (h : (clauses settings scope inner).result = .ok filters)
    (h' : (clauses settings scope' inner').result = .ok filters') :
    filters = filters' ↔ AgreeOn first second (.boolean inner) := by
  -- the filters at an index are those of the clauses there, to which the hypothesis applies
  have hindex : ∀ (i : Nat) (c : Clause Query), inner[i]? = some c →
      ∃ filter filter', filters[i]? = some filter ∧ filters'[i]? = some filter' ∧
        (filter = filter' ↔
          AgreeOn (fun path => first (i :: path)) (fun path => second (i :: path)) c.query) := by
    intro i c hc
    obtain ⟨c', hc', hsame⟩ := unmarked_of_getElem? same hc
    obtain ⟨filter, hf, hr⟩ := clauses_getElem? h hc
    obtain ⟨filter', hf', hr'⟩ := clauses_getElem? h' hc'
    refine ⟨filter, filter', hf, hf', ?_⟩
    rw [hfirst i c hc, hsecond i c' hc']
    exact each c (List.mem_of_getElem? hc) c'.query _ _ _ _ _ _ hsame hr hr'
  rw [agreeOn_boolean]
  constructor
  · intro heq i c hc
    obtain ⟨filter, filter', hf, hf', hiff⟩ := hindex i c hc
    apply hiff.mp
    rw [heq] at hf
    exact Option.some.inj (hf.symm.trans hf')
  · intro hagree
    apply List.ext_getElem?
    intro i
    cases hc : inner[i]? with
    | none =>
      have hlen := (clauses_eq_ok.mp h).length_eq
      have hlen' := (clauses_eq_ok.mp h').length_eq
      have hsame := length_eq_of_unmarkedClauses same
      rw [List.getElem?_eq_none_iff] at hc
      rw [List.getElem?_eq_none (by omega), List.getElem?_eq_none (by omega)]
    | some c =>
      obtain ⟨filter, filter', hf, hf', hiff⟩ := hindex i c hc
      rw [hf, hf', hiff.mpr (hagree i c hc)]

private theorem clause_equalIffAgree (query : Query) : EqualIffAgree settings query := by
  induction query with
  | leaf l =>
    intro query' scope scope' own own' filter filter' same h h'
    obtain rfl := eq_leaf_of_unmarked same
    rw [agreeOn_leaf]
    have hiff := rendering_eq_iff (clauseLeaf_eq_ok.mp h) (clauseLeaf_eq_ok.mp h')
    simpa [governing?] using hiff
  | boolean inner ih =>
    intro query' scope scope' own own' filter filter' same h h'
    obtain ⟨inner', rfl, hinner⟩ := exists_boolean_of_unmarked same
    obtain ⟨children, hchildren, rfl⟩ := clause_boolean_eq_ok.mp h
    obtain ⟨children', hchildren', rfl⟩ := clause_boolean_eq_ok.mp h'
    have hfirst (i : Nat) (c : Clause Query) (hc : inner[i]? = some c) :=
      funext (@governing?_cons (.boolean inner) i c hc scope own)
    have hsecond (i : Nat) (c : Clause Query) (hc : inner'[i]? = some c) :=
      funext (@governing?_cons (.boolean inner') i c hc scope' own')
    have hiff := clauses_eq_iff hfirst hsecond ih hinner hchildren hchildren'
    simpa using hiff

theorem root_eq_iff {settings : Settings} {query query' : Query}
    (same : query'.unmarked = query.unmarked) {filter filter' : Filter}
    (h : (root settings query).result = .ok filter)
    (h' : (root settings query').result = .ok filter') :
    filter = filter' ↔ AgreeOn query.effective? query'.effective? query := by
  cases query with
  | leaf l =>
    obtain rfl := eq_leaf_of_unmarked same
    have heq : filter = filter' := Except.ok.inj (h.symm.trans h')
    simp [heq, agreeOn_leaf]
  | boolean inner =>
    obtain ⟨inner', rfl, hinner⟩ := exists_boolean_of_unmarked same
    obtain ⟨children, hchildren, rfl⟩ := root_boolean_eq_ok.mp h
    obtain ⟨children', hchildren', rfl⟩ := root_boolean_eq_ok.mp h'
    have hfirst (i : Nat) (c : Clause Query) (hc : inner[i]? = some c) :=
      funext (@effective?_cons (.boolean inner) i c hc)
    have hsecond (i : Nat) (c : Clause Query) (hc : inner'[i]? = some c) :=
      funext (@effective?_cons (.boolean inner') i c hc)
    have hiff := clauses_eq_iff hfirst hsecond (fun c _ => clause_equalIffAgree c.query) hinner
      hchildren hchildren'
    simpa using hiff

end Conversion

namespace Query

/-- A clause whose occurrence shows in no filter: a leaf without words, or one whose boolean query
is itself a clause. -/
def HidesOccurrence (path : List Nat) (c : Clause Query) : Prop :=
  ∃ l, c.query = leaf l ∧ (1 < path.length ∨ ¬l.ShowsOccurrence)

/-- The clause that governs a leaf with words does not hide its occurrence: it is the leaf under the
root, or holds a boolean query. -/
theorem exists_governing_clause {query : Query} {path : List Nat} {l : Leaf}
    (h : query.at? path = some (leaf l)) (hshows : l.ShowsOccurrence) (hne : path ≠ []) :
    ∃ c, query.clauseAt? (governingPath path) = some c ∧
      ¬HidesOccurrence (governingPath path) c := by
  unfold governingPath
  by_cases hlength : path.length = 1
  · rw [if_pos hlength]
    obtain ⟨c, hc, hl⟩ := exists_clauseAt? h hne
    refine ⟨c, hc, ?_⟩
    intro hhides
    obtain ⟨l', hl', hdeep | hplain⟩ := hhides
    · omega
    · obtain rfl : l = l' := Query.leaf.inj (hl.symm.trans hl')
      exact hplain hshows
  · rw [if_neg hlength]
    rw [← List.dropLast_append_getLast hne, at?_append] at h
    obtain ⟨q, hq, hlast⟩ := Option.bind_eq_some_iff.mp h
    have hne' : path.dropLast ≠ [] := by
      have hpos := List.length_pos_iff.mpr hne
      apply List.ne_nil_of_length_pos
      rw [List.length_dropLast]
      omega
    obtain ⟨c, hc, rfl⟩ := exists_clauseAt? hq hne'
    refine ⟨c, hc, ?_⟩
    intro hhides
    obtain ⟨l', hl', -⟩ := hhides
    simp [hl', at?, Query.clauses] at hlast

theorem agreeOn_of_hidden {query query' : Query} (same : query'.unmarked = query.unmarked)
    (h : ∀ path c c', query.clauseAt? path = some c → query'.clauseAt? path = some c' →
      (c.occurrence = .required ↔ c'.occurrence = .required) ∨ HidesOccurrence path c) :
    AgreeOn query.effective? query'.effective? query := by
  intro path l hp hshows
  by_cases hne : path = []
  · rw [hne]
    rfl
  · obtain ⟨c, hc, hhides⟩ := exists_governing_clause hp hshows hne
    obtain ⟨c', hc'⟩ := exists_clauseAt?_of_unmarked same hc
    have hrequired := (h _ c c' hc hc').resolve_right hhides
    rw [effective?, effective?, hc, hc', Option.map_some, Option.map_some, Option.some.injEq,
      Option.some.injEq, hrequired]

end Query

/-- Queries that differ in occurrences alone have the same rejection, or filters that are equal
exactly when the leaves with words are required alike. So their results are equal if occurrences
change only between optional and excluded or on leaves that hide them. -/
theorem Query.toFilter_eq_iff_agreeOn (settings : Settings) {query query' : Query}
    (same : query'.unmarked = query.unmarked) :
    ((∃ rejection, (query.toFilter settings).result = .error rejection ∧
        (query'.toFilter settings).result = .error rejection) ∨
      ∃ filter filter', (query.toFilter settings).result = .ok filter ∧
        (query'.toFilter settings).result = .ok filter' ∧
        (filter = filter' ↔ AgreeOn query.effective? query'.effective? query)) ∧
    ((∀ path c c', query.clauseAt? path = some c → query'.clauseAt? path = some c' →
        (c.occurrence = .required ↔ c'.occurrence = .required) ∨ HidesOccurrence path c) →
      (query.toFilter settings).result = (query'.toFilter settings).result) := by
  have hrejection := toFilter_rejection?_of_unmarked settings settings same
  cases hr : (query.toFilter settings).result with
  | error rejection =>
    have hr' : (query'.toFilter settings).result = .error rejection := by
      rw [← Traced.rejection?_eq_some, hrejection, Traced.rejection?_eq_some, hr]
    rw [hr']
    exact ⟨.inl ⟨rejection, rfl, rfl⟩, fun _ => rfl⟩
  | ok filter =>
    cases hr' : (query'.toFilter settings).result with
    | error rejection =>
      rw [← Traced.rejection?_eq_some, hrejection, Traced.rejection?_eq_some, hr] at hr'
      cases hr'
    | ok filter' =>
      have hiff : filter = filter' ↔ AgreeOn query.effective? query'.effective? query :=
        root_eq_iff same hr hr'
      refine ⟨.inr ⟨filter, filter', rfl, rfl, hiff⟩, ?_⟩
      intro hhidden
      rw [hiff.mpr (agreeOn_of_hidden same hhidden)]

/-- The occurrence on the boolean query around a word shows in the filter. -/
theorem Query.toFilter_eq_iff_agreeOn_nested :
    let query (outer : Occurrence) : Query :=
      boolean [⟨boolean [⟨leaf (.term "title" "rust"), .required⟩], outer⟩,
        ⟨leaf (.phrase []), outer⟩]
    (query .optional).unmarked = (query .required).unmarked ∧
      ((query .required).toFilter ⟨"_id", '.'⟩).result =
        .ok (.and [.or [.eq "title" (.text "rust")], .and []]) ∧
      ((query .optional).toFilter ⟨"_id", '.'⟩).result =
        .ok (.and [.or [.ne "title" (.text "rust")], .and []]) ∧
      ¬AgreeOn (query .required).effective? (query .optional).effective? (query .required) := by
  intro query
  have same : (query .optional).unmarked = (query .required).unmarked := rfl
  refine ⟨same, rfl, rfl, ?_⟩
  intro hagree
  obtain ⟨rejection, h, -⟩ | ⟨filter, filter', h, h', hiff⟩ :=
    (toFilter_eq_iff_agreeOn ⟨"_id", '.'⟩ same).1
  · cases h
  · have heq := hiff.mpr hagree
    cases h
    cases h'
    simp [wordFilter, Scope.governing, Occurrence.isRequired] at heq

end SearchFilter
