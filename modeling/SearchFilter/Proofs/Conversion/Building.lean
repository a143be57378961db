import SearchFilter.Proofs.Conversion.Obstacle
import SearchFilter.Query
/-!
# Queries under construction

To add clauses to a builder is to append their filters to those already there, and the first
rejection stays. A boolean query that is put into a clause becomes a disjunction: its leaves follow
the occurrence of that clause, and nothing changes in the boolean queries inside it.
-/
namespace SearchFilter

open Conversion

namespace Query.Builder

inductive Addition where
  | add (query : Query) (occurrence : Occurrence)
  | required (query : Query)
  | optional (query : Query)
  | excluded (query : Query)

def Addition.clause : Addition → Clause Query
  | add query occurrence => ⟨query, occurrence⟩
  | required query => ⟨query, .required⟩
  | optional query => ⟨query, .optional⟩
  | excluded query => ⟨query, .excluded⟩

def perform (builder : Builder) : Addition → Builder
  | .add query occurrence => builder.add query occurrence
  | .required query => builder.required query
  | .optional query => builder.optional query
  | .excluded query => builder.excluded query

def performAll (builder : Builder) (additions : List Addition) : Builder :=
  additions.foldl perform builder

/-- The builder put into a clause of a new one, and that one again, from the inside out. -/
def wrapAll (builder : Builder) (occurrences : List Occurrence) : Builder :=
  occurrences.foldl wrap builder

theorem clauses_perform (builder : Builder) (addition : Addition) :
    (builder.perform addition).clauses = builder.clauses ++ [addition.clause] := by
  cases addition <;> rfl

theorem clauses_performAll (builder : Builder) (additions : List Addition) :
    (builder.performAll additions).clauses =
      builder.clauses ++ additions.map Addition.clause := by
  induction additions generalizing builder with
  | nil => exact (List.append_nil _).symm
  | cons addition additions ih =>
    rw [performAll, List.foldl_cons, ← performAll, ih, clauses_perform, List.append_assoc,
      List.singleton_append, List.map_cons]

end Query.Builder

open Query Query.Builder

namespace Conversion

variable {settings : Settings}

theorem clauses_append (scope : Scope) (front back : List (Clause Query)) :
    clauses settings scope (front ++ back) = do
      let filters ← clauses settings scope front
      let others ← clauses settings scope back
      return filters ++ others := by
  induction front with
  | nil => simp [clauses]
  | cons c front ih => simp [clauses_cons, ih]

/-- The filters of added clauses come behind those already there, and the first rejection counts. -/
theorem performAll_result (settings : Settings) (builder : Builder) (additions : List Addition) :
    ((builder.performAll additions).build.toFilter settings).result = do
      let filters ← (clauses settings .root builder.clauses).result
      let others ← (clauses settings .root (additions.map Addition.clause)).result
      return .and (filters ++ others) := by
  rw [toFilter_result, build, clauses_performAll, root, clauses_append]
  simp only [bind_assoc, pure_bind, Traced.result_bind, Traced.result_pure]
  rfl

/-- What stands for the filter of a clause of the root when its boolean query is put into a clause
itself: a leaf follows the occurrence of that clause, and a boolean query keeps its filter. -/
def lowered? (outer : Occurrence) (filter? : Option Filter) : Query → Option Filter
  | .leaf l => l.rendering? outer
  | .boolean _ => filter?

theorem rendering?_isSome (l : Leaf) (occurrence : Occurrence) :
    (l.rendering? occurrence).isSome = !l.isObstacle := by
  cases l with
  | textRange field lower upper =>
    rw [rendering?_textRange]
    rfl
  | _ => cases occurrence <;> rfl

theorem exists_lowered_clause {query : Query} {own : Occurrence} {filter : Filter}
    (h : (clause settings .root own query).result = .ok filter) (outer : Occurrence) :
    ∃ lower, (clause settings (.clause outer) own query).result = .ok lower ∧
      some lower = lowered? outer (some filter) query := by
  cases query with
  | boolean inner => exact ⟨filter, h, rfl⟩
  | leaf l =>
    -- whether a clause can hold a leaf does not depend on the occurrence
    have hsome : (l.rendering? outer).isSome = true := by
      rw [rendering?_isSome, ← rendering?_isSome l own]
      exact Option.isSome_of_eq_some (clauseLeaf_eq_ok.mp h)
    obtain ⟨lower, hlower⟩ := Option.isSome_iff_exists.mp hsome
    exact ⟨lower, clauseLeaf_eq_ok.mpr hlower, hlower.symm⟩

theorem exists_lowered_clauses {inner : List (Clause Query)} {children : List Filter}
    (h : (clauses settings .root inner).result = .ok children) (outer : Occurrence) :
    ∃ lower, (clauses settings (.clause outer) inner).result = .ok lower ∧
      lower.length = children.length ∧
      ∀ (i : Nat) (c : Clause Query), inner[i]? = some c →
        lower[i]? = lowered? outer children[i]? c.query := by
  rw [clauses_eq_ok] at h
  induction h with
  | nil => exact ⟨[], rfl, rfl, by simp⟩
  | cons hfirst _ ih =>
    obtain ⟨first, hfirst, hlowered⟩ := exists_lowered_clause hfirst outer
    obtain ⟨others, hothers, hlength, hindex⟩ := ih
    refine ⟨first :: others, clauses_eq_ok.mpr (.cons hfirst (clauses_eq_ok.mp hothers)),
      congrArg Nat.succ hlength, ?_⟩
    intro i c hc
    cases i with
    | zero =>
      obtain rfl := Option.some.inj hc
      exact hlowered
    | succ i => exact hindex i c hc

theorem wrap_eq_ok {settings : Settings} {builder : Builder} {occurrence : Occurrence}
    {lower : List Filter}
    (h : (clauses settings (.clause occurrence) builder.clauses).result = .ok lower) :
    ((builder.wrap occurrence).build.toFilter settings).result = .ok (.and [.or lower]) := by
  have hclause : (clause settings .root occurrence builder.build).result = .ok (.or lower) :=
    clause_boolean_eq_ok.mpr ⟨lower, h, rfl⟩
  exact root_boolean_eq_ok.mpr ⟨[.or lower], clauses_eq_ok.mpr (.cons hclause .nil), rfl⟩

theorem wrap_rejection? (settings : Settings) (builder : Builder) (occurrence : Occurrence) :
    ((builder.wrap occurrence).build.toFilter settings).rejection? =
      (builder.build.toFilter settings).rejection? := by
  have hleaves : leavesOf (builder.wrap occurrence).clauses = leavesOf builder.clauses :=
    List.append_nil _
  rw [toFilter_rejection?, toFilter_rejection?, build, build, root_boolean_rejection?,
    root_boolean_rejection?, hleaves]

theorem wrapAll_rejection? (settings : Settings) (builder : Builder)
    (occurrences : List Occurrence) :
    ((builder.wrapAll occurrences).build.toFilter settings).rejection? =
      (builder.build.toFilter settings).rejection? := by
  induction occurrences generalizing builder with
  | nil => rfl
  | cons occurrence occurrences ih =>
    exact (ih _).trans (wrap_rejection? settings builder occurrence)

end Conversion

/-- What becomes of a boolean query when clauses are added to it, one call after the other: a
rejection stays, new filters come behind those already there, and otherwise the rejection is that of
the new clauses. What becomes of it as the only clause of a new query: a filter becomes a
disjunction in which leaves follow the new occurrence, and a rejection stays, however often this is
done. -/
theorem Query.toFilter_performAll_wrap (settings : Settings) (builder : Builder) :
    (∀ additions rejection, (builder.build.toFilter settings).result = .error rejection →
      ((builder.performAll additions).build.toFilter settings).result = .error rejection) ∧
    (∀ additions filter filter', (builder.build.toFilter settings).result = .ok filter →
      ((boolean (additions.map Addition.clause)).toFilter settings).result = .ok filter' →
      ∃ children children', filter = .and children ∧ filter' = .and children' ∧
        ((builder.performAll additions).build.toFilter settings).result =
          .ok (.and (children ++ children'))) ∧
    (∀ additions filter rejection, (builder.build.toFilter settings).result = .ok filter →
      ((boolean (additions.map Addition.clause)).toFilter settings).result = .error rejection →
      ((builder.performAll additions).build.toFilter settings).result = .error rejection) ∧
    (∀ filter occurrence, (builder.build.toFilter settings).result = .ok filter →
      ∃ children lower, filter = .and children ∧
        ((builder.wrap occurrence).build.toFilter settings).result = .ok (.and [.or lower]) ∧
        lower.length = children.length ∧
        ∀ (i : Nat) (c : Clause Query), builder.clauses[i]? = some c →
          lower[i]? = lowered? occurrence children[i]? c.query) ∧
    (∀ occurrences rejection, (builder.build.toFilter settings).result = .error rejection →
      ((builder.wrapAll occurrences).build.toFilter settings).result = .error rejection) := by
  refine ⟨?_, ?_, ?_, ?_, ?_⟩
  · intro additions rejection h
    rw [performAll_result, root_boolean_eq_error.mp h]
    rfl
  · intro additions filter filter' h h'
    obtain ⟨children, hchildren, rfl⟩ := root_boolean_eq_ok.mp h
    obtain ⟨children', hchildren', rfl⟩ := root_boolean_eq_ok.mp h'
    refine ⟨children, children', rfl, rfl, ?_⟩
    rw [performAll_result, hchildren, hchildren']
    rfl
  · intro additions filter rejection h h'
    obtain ⟨children, hchildren, rfl⟩ := root_boolean_eq_ok.mp h
    rw [performAll_result, hchildren, root_boolean_eq_error.mp h']
    rfl
  · intro filter occurrence h
    obtain ⟨children, hchildren, rfl⟩ := root_boolean_eq_ok.mp h
    obtain ⟨lower, hlower, hlength, hindex⟩ := exists_lowered_clauses hchildren occurrence
    exact ⟨children, lower, rfl, wrap_eq_ok hlower, hlength, hindex⟩
  · intro occurrences rejection h
    rw [← Traced.rejection?_eq_some, wrapAll_rejection?, Traced.rejection?_eq_some, h]

/-- A clause is added, then the query is put into an excluded clause, and a leaf that no clause can
hold is added to the same query. -/
theorem Query.toFilter_performAll_wrap_group :
    let settings : Settings := ⟨"_id", '.'⟩
    let group : Query := boolean [⟨leaf (.term "lang" "en"), .optional⟩]
    let builder := (empty.required (leaf (.term "title" "rust"))).required group
    let title : Filter := .eq "title" (.text "rust")
    let lang : Filter := .or [.eq "lang" (.text "en")]
    let rejection : Rejection := ⟨Leaf.matchAll.kindName, .booleanClause⟩
    (builder.build.toFilter settings).result = .ok (.and [title, lang]) ∧
      ((builder.performAll [.excluded (leaf (.term "year" "2024"))]).build.toFilter
        settings).result = .ok (.and [title, lang, .ne "year" (.text "2024")]) ∧
      (∃ lower, ((builder.wrap .excluded).build.toFilter settings).result = .ok (.and [.or lower]) ∧
        lower.length = 2 ∧ lower[0]? = some (.ne "title" (.text "rust")) ∧ lower[1]? = some lang) ∧
      ((builder.performAll [.optional (leaf .matchAll)]).build.toFilter settings).result =
        .error rejection ∧
      (((builder.performAll [.optional (leaf .matchAll)]).wrapAll
        [.optional, .excluded]).build.toFilter settings).result = .error rejection := by
  intro settings group builder title lang rejection
  have hfilter : (builder.build.toFilter settings).result = .ok (.and [title, lang]) := rfl
  obtain ⟨-, hadded, hrejected, hwrapped, -⟩ := toFilter_performAll_wrap settings builder
  obtain ⟨-, -, -, -, hagain⟩ :=
    toFilter_performAll_wrap settings (builder.performAll [.optional (leaf .matchAll)])
  have hrejection := hrejected [.optional (leaf .matchAll)] _ rejection hfilter rfl
  obtain ⟨_, _, hchildren, hothers, hresult⟩ :=
    hadded [.excluded (leaf (.term "year" "2024"))] _ _ hfilter rfl
  cases hchildren
  cases hothers
  obtain ⟨_, lower, hchildren, hresult', hlength, hlower⟩ := hwrapped _ .excluded hfilter
  cases hchildren
  exact ⟨hfilter, hresult, ⟨lower, hresult', hlength, hlower 0 _ rfl, hlower 1 _ rfl⟩, hrejection,
    hagain _ rejection hrejection⟩

end SearchFilter
