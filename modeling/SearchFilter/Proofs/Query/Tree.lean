import SearchFilter.Query
/-!
# Queries as trees

Induction over queries, what stands at a path of clause indices, and the leaves from left to right.
-/
namespace SearchFilter.Query

@[induction_eliminator]
theorem inductionOn {motive : Query → Prop} (leaf : ∀ l, motive (.leaf l))
    (boolean : ∀ clauses, (∀ c ∈ clauses, motive c.query) → motive (.boolean clauses))
    (query : Query) : motive query :=
  match query with
  | .leaf l => leaf l
  | .boolean clauses => boolean clauses fun c _ => inductionOn leaf boolean c.query
termination_by sizeOf query
decreasing_by
  rename_i hc
  have hmem := List.sizeOf_lt_of_mem hc
  cases c
  simp only [Clause.mk.sizeOf_spec, Query.boolean.sizeOf_spec] at hmem ⊢
  omega

def clauses : Query → List (Clause Query)
  | leaf _ => []
  | boolean clauses => clauses

def at? (query : Query) : List Nat → Option Query
  | [] => some query
  | i :: path => query.clauses[i]?.bind fun c => c.query.at? path

/-- The clause at a path of clause indices. The whole query is no clause. -/
def clauseAt? (query : Query) : List Nat → Option (Clause Query)
  | [] => none
  | [i] => query.clauses[i]?
  | i :: j :: path => query.clauses[i]?.bind fun c => c.query.clauseAt? (j :: path)

/-- The clause whose occurrence governs the leaf at a path: the leaf clause itself under the root,
elsewhere the clause that holds the boolean query around it. -/
def governingPath (path : List Nat) : List Nat :=
  if path.length = 1 then path else path.dropLast

/-- The occurrence that counts for the leaf at a path. -/
def effective? (query : Query) (path : List Nat) : Option Occurrence :=
  (query.clauseAt? (governingPath path)).map Clause.occurrence

mutual

def leaves : Query → List Leaf
  | leaf l => [l]
  | boolean clauses => leavesOf clauses

def leavesOf : List (Clause Query) → List Leaf
  | [] => []
  | ⟨query, _⟩ :: clauses => leaves query ++ leavesOf clauses

end

theorem leavesOf_cons (c : Clause Query) (clauses : List (Clause Query)) :
    leavesOf (c :: clauses) = c.query.leaves ++ leavesOf clauses := rfl

mutual

/-- The query with the same occurrence on all clauses. -/
def unmarked : Query → Query
  | leaf l => leaf l
  | boolean clauses => boolean (unmarkedClauses clauses)

def unmarkedClauses : List (Clause Query) → List (Clause Query)
  | [] => []
  | ⟨query, _⟩ :: clauses => ⟨unmarked query, .optional⟩ :: unmarkedClauses clauses

end

theorem leaves_unmarked (query : Query) : query.unmarked.leaves = query.leaves := by
  induction query with
  | leaf l => rfl
  | boolean clauses ih =>
    rw [unmarked, leaves, leaves]
    induction clauses with
    | nil => rfl
    | cons c clauses ihc =>
      have hc := ih c List.mem_cons_self
      have hrest := ihc fun d hd => ih d (List.mem_cons_of_mem _ hd)
      rw [unmarkedClauses, leavesOf_cons, leavesOf_cons, hc, hrest]

theorem at?_append (query : Query) (front back : List Nat) :
    query.at? (front ++ back) = (query.at? front).bind fun q => q.at? back := by
  induction front generalizing query with
  | nil => rfl
  | cons i front ih =>
    simp only [List.cons_append, at?, ih, Option.bind_assoc]

theorem exists_clauseAt? {query : Query} {path : List Nat} {q : Query}
    (h : query.at? path = some q) (hne : path ≠ []) :
    ∃ c, query.clauseAt? path = some c ∧ c.query = q := by
  induction path generalizing query with
  | nil => exact absurd rfl hne
  | cons i path ih =>
    obtain ⟨c, hc, hq⟩ := Option.bind_eq_some_iff.mp h
    cases path with
    | nil => exact ⟨c, hc, Option.some.inj hq⟩
    | cons j path =>
      obtain ⟨d, hd, hq⟩ := ih hq (List.cons_ne_nil j path)
      exact ⟨d, Option.bind_eq_some_iff.mpr ⟨c, hc, hd⟩, hq⟩

theorem unmarkedClauses_eq_map (clauses : List (Clause Query)) :
    unmarkedClauses clauses = clauses.map fun c => ⟨c.query.unmarked, .optional⟩ := by
  induction clauses with
  | nil => rfl
  | cons c clauses ih => rw [unmarkedClauses, ih, List.map_cons]

theorem eq_leaf_of_unmarked {query : Query} {l : Leaf} (h : query.unmarked = (leaf l).unmarked) :
    query = leaf l := by
  cases query with
  | leaf l' => exact h
  | boolean clauses => simp [unmarked] at h

theorem exists_boolean_of_unmarked {query : Query} {clauses : List (Clause Query)}
    (h : query.unmarked = (boolean clauses).unmarked) :
    ∃ clauses', query = boolean clauses' ∧ unmarkedClauses clauses' = unmarkedClauses clauses := by
  cases query with
  | leaf l => simp [unmarked] at h
  | boolean clauses' => exact ⟨clauses', rfl, Query.boolean.inj h⟩

theorem length_eq_of_unmarkedClauses {clauses clauses' : List (Clause Query)}
    (h : unmarkedClauses clauses' = unmarkedClauses clauses) :
    clauses'.length = clauses.length := by
  have hlength := congrArg List.length h
  simpa only [unmarkedClauses_eq_map, List.length_map] using hlength

theorem unmarked_of_getElem? {clauses clauses' : List (Clause Query)}
    (h : unmarkedClauses clauses' = unmarkedClauses clauses) {i : Nat} {c : Clause Query}
    (hc : clauses[i]? = some c) :
    ∃ c', clauses'[i]? = some c' ∧ c'.query.unmarked = c.query.unmarked := by
  have hi := congrArg (fun cs : List (Clause Query) => cs[i]?) h
  simp only [unmarkedClauses_eq_map, List.getElem?_map, hc, Option.map_some] at hi
  obtain ⟨c', hc', heq⟩ := Option.map_eq_some_iff.mp hi
  exact ⟨c', hc', (Clause.mk.inj heq).1⟩

theorem exists_clauseAt?_of_unmarked {query query' : Query}
    (same : query'.unmarked = query.unmarked) {path : List Nat} {c : Clause Query}
    (h : query.clauseAt? path = some c) : ∃ c', query'.clauseAt? path = some c' := by
  induction path generalizing query query' with
  | nil => cases h
  | cons i path ih =>
    cases query with
    | leaf l =>
      cases path <;> simp [clauseAt?, Query.clauses] at h
    | boolean inner =>
      obtain ⟨inner', rfl, hinner⟩ := exists_boolean_of_unmarked same
      cases path with
      | nil =>
        obtain ⟨c', hc', -⟩ := unmarked_of_getElem? hinner h
        exact ⟨c', hc'⟩
      | cons j path =>
        obtain ⟨d, hd, h⟩ := Option.bind_eq_some_iff.mp h
        obtain ⟨d', hd', hsame⟩ := unmarked_of_getElem? hinner hd
        obtain ⟨c', hc'⟩ := ih hsame h
        exact ⟨c', Option.bind_eq_some_iff.mpr ⟨d', hd', hc'⟩⟩

end SearchFilter.Query
