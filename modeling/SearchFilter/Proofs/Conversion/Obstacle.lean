import SearchFilter.Proofs.Conversion.Shape
/-!
# Which queries are rejected

A query is rejected for the first leaf, from left to right, that has no filter where it stands. The
rejection is computed from the leaves alone: settings and occurrences do not count, and nothing
behind that leaf does.
-/
namespace SearchFilter

/-- The kind that is reported of a leaf without a filter in a clause. -/
def Leaf.obstacleKind? : Leaf → Option String
  | wildcard .. => some "wildcard"
  | startsWith .. => some "prefix"
  | regexp .. => some "regexp"
  | fuzzy .. => some "fuzzy"
  | matchAll => some "match_all"
  | foreign kind => some kind
  | term .. | phrase .. | numericRange .. | textRange .. => none

def Leaf.isObstacle (l : Leaf) : Bool :=
  l.obstacleKind?.isSome

/-- A query with a leaf that has no filter where it stands. -/
def Query.HasObstacle : Query → Prop
  | leaf l => ∃ kind, l = .foreign kind
  | boolean clauses => ∃ l ∈ leavesOf clauses, l.isObstacle

/-- The first leaf without a filter, and where it stands. -/
inductive Query.RejectedFor : Query → Rejection → Prop
  | root (kind : String) : RejectedFor (leaf (.foreign kind)) ⟨kind, .topLevel⟩
  | clause (clauses : List (Clause Query)) (before : List Leaf) (obstacle : Leaf)
      (behind : List Leaf) (leaves_eq : leavesOf clauses = before ++ obstacle :: behind)
      (clear : ∀ l ∈ before, l.isObstacle = false) (kind : String)
      (named : obstacle.obstacleKind? = some kind) :
      RejectedFor (boolean clauses) ⟨kind, .booleanClause⟩

namespace Conversion

variable {settings : Settings}

/-- The rejection of the first obstacle among leaves of a boolean query. -/
def obstruction? (leaves : List Leaf) : Option Rejection :=
  (leaves.findSome? Leaf.obstacleKind?).map fun kind => ⟨kind, .booleanClause⟩

theorem obstruction?_append (front back : List Leaf) :
    obstruction? (front ++ back) = (obstruction? front).or (obstruction? back) := by
  unfold obstruction?
  rw [List.findSome?_append, Option.map_or]

theorem obstruction?_eq_some {leaves : List Leaf} {rejection : Rejection} :
    obstruction? leaves = some rejection ↔
      ∃ before obstacle behind kind, leaves = before ++ obstacle :: behind ∧
        (∀ l ∈ before, l.isObstacle = false) ∧ obstacle.obstacleKind? = some kind ∧
        rejection = ⟨kind, .booleanClause⟩ := by
  unfold obstruction?
  rw [Option.map_eq_some_iff]
  constructor
  · intro h
    rcases h with ⟨kind, hfind, rfl⟩
    obtain ⟨before, obstacle, behind, hleaves, hnamed, hbefore⟩ :=
      List.findSome?_eq_some_iff.mp hfind
    exact ⟨before, obstacle, behind, kind, hleaves, by simpa [Leaf.isObstacle] using hbefore,
      hnamed, rfl⟩
  · intro h
    rcases h with ⟨before, obstacle, behind, kind, hleaves, hbefore, hnamed, rfl⟩
    refine ⟨kind, List.findSome?_eq_some_iff.mpr ?_, rfl⟩
    exact ⟨before, obstacle, behind, hleaves, hnamed, by simpa [Leaf.isObstacle] using hbefore⟩

theorem obstruction?_eq_none {leaves : List Leaf} :
    obstruction? leaves = none ↔ ¬ ∃ l ∈ leaves, l.isObstacle := by
  simp [obstruction?, Leaf.isObstacle, Option.isSome_iff_ne_none]

theorem clauseLeaf_rejection? (occurrence : Occurrence) (l : Leaf) :
    (clauseLeaf settings occurrence l).rejection? = obstruction? [l] := by
  cases l <;> rfl

private theorem clauses_rejection?_of_each {scope : Scope} {inner : List (Clause Query)}
    (each : ∀ c ∈ inner,
      (clause settings scope c.occurrence c.query).rejection? = obstruction? c.query.leaves) :
    (clauses settings scope inner).rejection? = obstruction? (Query.leavesOf inner) := by
  induction inner with
  | nil => rfl
  | cons c rest ih =>
    have hc := each c List.mem_cons_self
    have hrest := ih fun d hd => each d (List.mem_cons_of_mem _ hd)
    -- a rejected clause hides what is wrong with the clauses behind it
    rw [clauses_cons, Query.leavesOf_cons, obstruction?_append, ← hc, ← hrest]
    apply Traced.rejection?_bind
    intro filter
    rw [Traced.rejection?_bind fun _ => Traced.rejection?_pure _, Option.or_none]

/-- What a clause is rejected for depends on its leaves alone. -/
theorem clause_rejection? (query : Query) (scope : Scope) (own : Occurrence) :
    (clause settings scope own query).rejection? = obstruction? query.leaves := by
  induction query generalizing scope own with
  | leaf l => exact clauseLeaf_rejection? (scope.governing own) l
  | boolean inner ih =>
    rw [clause, Traced.rejection?_bind fun _ => Traced.rejection?_pure _, Option.or_none]
    exact clauses_rejection?_of_each fun c hc => ih c hc (.clause own) c.occurrence

theorem root_boolean_rejection? (settings : Settings) (inner : List (Clause Query)) :
    (root settings (.boolean inner)).rejection? = obstruction? (Query.leavesOf inner) := by
  rw [root, Traced.rejection?_bind fun _ => Traced.rejection?_pure _, Option.or_none]
  exact clauses_rejection?_of_each fun c _ => clause_rejection? c.query .root c.occurrence

theorem rootLeaf_rejection?_eq_some {settings : Settings} {l : Leaf} {rejection : Rejection} :
    (rootLeaf settings l).rejection? = some rejection ↔
      ∃ kind, l = .foreign kind ∧ rejection = ⟨kind, .topLevel⟩ := by
  cases l <;> simp [rootLeaf, Traced.rejection?, numericRange_result, eq_comm]

end Conversion

open Conversion

theorem Query.toFilter_rejection?_eq_some {settings : Settings} {query : Query}
    {rejection : Rejection} :
    (query.toFilter settings).rejection? = some rejection ↔ query.RejectedFor rejection := by
  rw [toFilter_rejection?]
  cases query with
  | leaf l =>
    rw [root, rootLeaf_rejection?_eq_some]
    constructor
    · intro h
      rcases h with ⟨kind, rfl, rfl⟩
      exact .root kind
    · intro h
      cases h with
      | root kind => exact ⟨kind, rfl, rfl⟩
  | boolean clauses =>
    rw [root_boolean_rejection?, obstruction?_eq_some]
    constructor
    · intro h
      rcases h with ⟨before, obstacle, behind, kind, hleaves, hbefore, hnamed, rfl⟩
      exact .clause clauses before obstacle behind hleaves hbefore kind hnamed
    · intro h
      cases h with
      | clause _ before obstacle behind hleaves hbefore kind hnamed =>
        exact ⟨before, obstacle, behind, kind, hleaves, hbefore, hnamed, rfl⟩

theorem Query.hasObstacle_iff (query : Query) :
    query.HasObstacle ↔ ∃ rejection, query.RejectedFor rejection := by
  cases query with
  | leaf l =>
    constructor
    · intro h
      rcases h with ⟨kind, rfl⟩
      exact ⟨_, .root kind⟩
    · intro h
      rcases h with ⟨rejection, h⟩
      cases h with
      | root kind => exact ⟨kind, rfl⟩
  | boolean clauses =>
    constructor
    · intro h
      have hsome : obstruction? (leavesOf clauses) ≠ none := fun hnone =>
        obstruction?_eq_none.mp hnone h
      obtain ⟨rejection, hr⟩ := Option.ne_none_iff_exists'.mp hsome
      obtain ⟨before, obstacle, behind, kind, hleaves, hbefore, hnamed, -⟩ :=
        obstruction?_eq_some.mp hr
      exact ⟨_, .clause clauses before obstacle behind hleaves hbefore kind hnamed⟩
    · intro h
      rcases h with ⟨rejection, h⟩
      cases h with
      | clause _ before obstacle behind hleaves hbefore kind hnamed =>
        exact ⟨obstacle, by simp [hleaves], Option.isSome_of_eq_some hnamed⟩

theorem Query.toFilter_rejection?_of_unmarked (settings other : Settings) {query query' : Query}
    (h : query'.unmarked = query.unmarked) :
    (query'.toFilter other).rejection? = (query.toFilter settings).rejection? := by
  cases query with
  | leaf l =>
    cases query' with
    | leaf l' =>
      obtain rfl : l' = l := by simpa [unmarked] using h
      rw [toFilter_rejection?, toFilter_rejection?]
      cases l' <;> rfl
    | boolean clauses' => simp [unmarked] at h
  | boolean clauses =>
    cases query' with
    | leaf l' => simp [unmarked] at h
    | boolean clauses' =>
      have hleaves : leavesOf clauses' = leavesOf clauses := by
        have heq := congrArg leaves h
        rwa [leaves_unmarked, leaves_unmarked] at heq
      rw [toFilter_rejection?, toFilter_rejection?, root_boolean_rejection?,
        root_boolean_rejection?, hleaves]

/-- Conversion fails exactly on the queries with an obstacle, and then for the first one. The
rejection depends neither on the settings nor on occurrences nor on what stands behind that leaf. -/
theorem Query.toFilter_rejected_iff (settings : Settings) (query : Query) :
    ((∃ rejection, (query.toFilter settings).result = .error rejection) ↔ query.HasObstacle) ∧
    (∀ rejection, (query.toFilter settings).result = .error rejection ↔
      query.RejectedFor rejection) ∧
    (∀ (other : Settings) (query' : Query), query'.unmarked = query.unmarked →
      (query'.toFilter other).rejection? = (query.toFilter settings).rejection?) ∧
    (∀ (other : Settings) clauses clauses' before obstacle behind behind',
      query = .boolean clauses →
      leavesOf clauses = before ++ obstacle :: behind →
      leavesOf clauses' = before ++ obstacle :: behind' →
      (∀ l ∈ before, l.isObstacle = false) → obstacle.isObstacle →
      ((boolean clauses').toFilter other).result = (query.toFilter settings).result) := by
  have hiff : ∀ (settings : Settings) (query : Query) (rejection : Rejection),
      (query.toFilter settings).result = .error rejection ↔ query.RejectedFor rejection :=
    fun _ _ _ => Traced.rejection?_eq_some.symm.trans toFilter_rejection?_eq_some
  refine ⟨?_, hiff settings query, ?_, ?_⟩
  · simp only [hiff, hasObstacle_iff]
  · intro other query' h
    exact toFilter_rejection?_of_unmarked settings other h
  · rintro other clauses clauses' before obstacle behind behind' rfl hleaves hleaves' hbefore
      hobstacle
    obtain ⟨kind, hnamed⟩ := Option.isSome_iff_exists.mp hobstacle
    have hr := (hiff settings _ _).mpr
      (.clause clauses before obstacle behind hleaves hbefore kind hnamed)
    have hr' := (hiff other _ _).mpr
      (.clause clauses' before obstacle behind' hleaves' hbefore kind hnamed)
    rw [hr, hr']

end SearchFilter
