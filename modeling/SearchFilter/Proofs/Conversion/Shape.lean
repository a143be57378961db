import SearchFilter.Proofs.Conversion.Result
import SearchFilter.Proofs.Encoding.Sortable
import SearchFilter.Proofs.Filter.Tree
import SearchFilter.Proofs.Query.Tree
/-!
# The shape of a converted boolean query

The filter of a boolean query has a filter at every path of the query: a conjunction at the root,
a disjunction at every boolean query below it, and at every leaf what the leaf becomes under the
occurrence that counts there.
-/
namespace SearchFilter

open Conversion Sortable

/-- What a leaf of a boolean query becomes under an occurrence, if it has a filter there at all. -/
def Leaf.rendering? : Leaf → Occurrence → Option Filter
  | term field text, .required => some (.eq field (.text text))
  | term field text, _ => some (.ne field (.text text))
  | phrase words, .required => some (.and (words.map fun w => .eq w.field (.text w.text)))
  | phrase words, _ => some (.and (words.map fun w => .ne w.field (.text w.text)))
  | numericRange field lower upper, _ =>
    some (.and [.gte field (.int (endpoint Int64.minValue lower)),
      .lte field (.int (endpoint Int64.maxValue upper))])
  | textRange field none none, _ => some (.and [.gte field .null, .lte field .null])
  | textRange field none (some upper), _ =>
    some (.and [.gte field .null, .lte field (.text upper)])
  | textRange field (some lower) none, _ =>
    some (.and [.gte field (.text lower), .lte field .null])
  | textRange field (some lower) (some upper), _ =>
    some (.and [.gte field (.text lower), .lte field (.text upper)])
  | _, _ => none

namespace Conversion

variable {settings : Settings}

theorem rendering?_numericRange (field : String) (lower upper : List UInt8)
    (occurrence : Occurrence) :
    (Leaf.numericRange field lower upper).rendering? occurrence =
      some (interval field (.int (Side.lower.bound lower)) (.int (Side.upper.bound upper))) := by
  rw [bound_eq_endpoint, bound_eq_endpoint]
  rfl

theorem rendering?_textRange (field : String) (lower upper : Option String)
    (occurrence : Occurrence) :
    (Leaf.textRange field lower upper).rendering? occurrence =
      some (textRange field lower upper) := by
  cases lower <;> cases upper <;> rfl

theorem clauseLeaf_eq_ok {occurrence : Occurrence} {leaf : Leaf} {filter : Filter} :
    (clauseLeaf settings occurrence leaf).result = .ok filter ↔
      leaf.rendering? occurrence = some filter := by
  cases leaf with
  | numericRange field lower upper =>
    simp [clauseLeaf, rendering?_numericRange, numericRange_result]
  | textRange field lower upper => simp [clauseLeaf, rendering?_textRange]
  | _ =>
    cases occurrence <;> simp [clauseLeaf, Leaf.rendering?, wordFilter, Occurrence.isRequired]

/-- The occurrence that counts for the leaf at a path inside a clause. -/
def governing? (scope : Scope) (own : Occurrence) (query : Query) :
    List Nat → Option Occurrence
  | [] => some (scope.governing own)
  | [_] => some own
  | i :: j :: path => (query.clauseAt? (i :: j :: path).dropLast).map Clause.occurrence

theorem governing?_cons {query : Query} {i : Nat} {c : Clause Query}
    (hc : query.clauses[i]? = some c) (scope : Scope) (own : Occurrence) (path : List Nat) :
    governing? scope own query (i :: path) =
      governing? (.clause own) c.occurrence c.query path := by
  match path with
  | [] => rfl
  | [j] => simp [governing?, Query.clauseAt?, hc]
  | j :: k :: path => simp [governing?, Query.clauseAt?, hc]

theorem effective?_cons {query : Query} {i : Nat} {c : Clause Query}
    (hc : query.clauses[i]? = some c) (path : List Nat) :
    query.effective? (i :: path) = governing? .root c.occurrence c.query path := by
  match path with
  | [] =>
    simp [Query.effective?, Query.governingPath, governing?, Query.clauseAt?, hc, Scope.governing]
  | [j] => simp [Query.effective?, Query.governingPath, governing?, Query.clauseAt?, hc]
  | j :: k :: path =>
    simp [Query.effective?, Query.governingPath, governing?, Query.clauseAt?, hc]

/-- A filter has a disjunction at every boolean query and a rendering at every leaf. -/
structure Mirrors (occurrence? : List Nat → Option Occurrence) (query : Query)
    (filter : Filter) : Prop where
  boolean : ∀ path inner, query.at? path = some (.boolean inner) →
    ∃ children, filter.at? path = some (.or children) ∧ children.length = inner.length
  leaf : ∀ path l, query.at? path = some (.leaf l) →
    ∃ occurrence rendering, occurrence? path = some occurrence ∧
      l.rendering? occurrence = some rendering ∧ filter.at? path = some rendering

/-- Clauses and filters in the same order: the filter at an index is that of the clause there. -/
theorem clauses_getElem? {scope : Scope} {inner : List (Clause Query)}
    {filters : List Filter} (h : (clauses settings scope inner).result = .ok filters) {i : Nat}
    {c : Clause Query} (hc : inner[i]? = some c) :
    ∃ filter, filters[i]? = some filter ∧
      (clause settings scope c.occurrence c.query).result = .ok filter := by
  have hall := clauses_eq_ok.mp h
  have hlen := hall.length_eq
  obtain ⟨hi, rfl⟩ := List.getElem?_eq_some_iff.mp hc
  have hi' : i < filters.length := hlen ▸ hi
  exact ⟨filters[i], List.getElem?_eq_getElem hi', hall.get hi hi'⟩

theorem clause_mirrors (query : Query) {scope : Scope} {own : Occurrence}
    {filter : Filter} (h : (clause settings scope own query).result = .ok filter) :
    Mirrors (governing? scope own query) query filter := by
  induction query generalizing scope own filter with
  | leaf l =>
    have hr : l.rendering? (scope.governing own) = some filter := clauseLeaf_eq_ok.mp h
    refine ⟨?_, ?_⟩
    · intro path inner hp
      cases path <;> simp [Query.at?, Query.clauses] at hp
    · intro path l' hp
      cases path with
      | nil =>
        simp only [Query.at?, Option.some.injEq, Query.leaf.injEq] at hp
        subst hp
        exact ⟨_, filter, rfl, hr, rfl⟩
      | cons i path => simp [Query.at?, Query.clauses] at hp
  | boolean inner ih =>
    obtain ⟨children, hchildren, rfl⟩ := clause_boolean_eq_ok.mp h
    refine ⟨?_, ?_⟩
    · intro path inner' hp
      cases path with
      | nil =>
        simp only [Query.at?, Option.some.injEq, Query.boolean.injEq] at hp
        subst hp
        exact ⟨children, rfl, (clauses_eq_ok.mp hchildren).length_eq.symm⟩
      | cons i path =>
        -- the rest of the path starts at the clause with this index
        obtain ⟨c, hc, hp⟩ := Option.bind_eq_some_iff.mp hp
        obtain ⟨child, hchild, hr⟩ := clauses_getElem? hchildren hc
        rw [Filter.at?_combine_cons, hchild]
        exact (ih c (List.mem_of_getElem? hc) hr).boolean path inner' hp
    · intro path l hp
      cases path with
      | nil => simp [Query.at?] at hp
      | cons i path =>
        obtain ⟨c, hc, hp⟩ := Option.bind_eq_some_iff.mp hp
        obtain ⟨child, hchild, hr⟩ := clauses_getElem? hchildren hc
        rw [Filter.at?_combine_cons, hchild, governing?_cons hc]
        exact (ih c (List.mem_of_getElem? hc) hr).leaf path l hp

end Conversion

/-- The filter of a boolean query has exactly the shape of the query, and every leaf has the sign
that its position fixes. -/
theorem Query.toFilter_boolean_shape (settings : Settings) (clauses : List (Clause Query))
    (filter : Filter) (accepted : ((boolean clauses).toFilter settings).result = .ok filter) :
    (∃ children, filter = .and children ∧ children.length = clauses.length) ∧
    (∀ path inner, path ≠ [] → (boolean clauses).at? path = some (.boolean inner) →
      ∃ children, filter.at? path = some (.or children) ∧ children.length = inner.length) ∧
    (∀ path leaf, (boolean clauses).at? path = some (.leaf leaf) →
      ∃ occurrence rendering, (boolean clauses).effective? path = some occurrence ∧
        leaf.rendering? occurrence = some rendering ∧ filter.at? path = some rendering) := by
  obtain ⟨children, hchildren, rfl⟩ := root_boolean_eq_ok.mp accepted
  refine ⟨⟨children, rfl, (clauses_eq_ok.mp hchildren).length_eq.symm⟩, ?_, ?_⟩
  · intro path inner hne hp
    cases path with
    | nil => exact absurd rfl hne
    | cons i path =>
      obtain ⟨c, hc, hp⟩ := Option.bind_eq_some_iff.mp hp
      obtain ⟨child, hchild, hr⟩ := clauses_getElem? hchildren hc
      rw [Filter.at?_combine_cons, hchild]
      exact (clause_mirrors c.query hr).boolean path inner hp
  · intro path leaf hp
    cases path with
    | nil => simp [Query.at?] at hp
    | cons i path =>
      obtain ⟨c, hc, hp⟩ := Option.bind_eq_some_iff.mp hp
      obtain ⟨child, hchild, hr⟩ := clauses_getElem? hchildren hc
      rw [Filter.at?_combine_cons, hchild, effective?_cons hc]
      exact (clause_mirrors c.query hr).leaf path leaf hp

/-- Under three boolean queries the occurrence on the innermost one counts. -/
theorem Query.toFilter_boolean_shape_nested :
    ((boolean [⟨boolean [⟨boolean [⟨leaf (.term "title" "rust"), .required⟩], .excluded⟩],
        .required⟩]).toFilter ⟨"_id", '.'⟩).result =
      .ok (.and [.or [.or [.ne "title" (.text "rust")]]]) ∧
    ∃ occurrence rendering,
      (boolean [⟨boolean [⟨boolean [⟨leaf (.term "title" "rust"), .required⟩], .excluded⟩],
        .required⟩]).effective? [0, 0, 0] = some occurrence ∧
      (Leaf.term "title" "rust").rendering? occurrence = some rendering ∧
      (Filter.and [.or [.or [.ne "title" (.text "rust")]]]).at? [0, 0, 0] = some rendering :=
  ⟨rfl, (toFilter_boolean_shape ⟨"_id", '.'⟩ _ _ rfl).2.2 [0, 0, 0] (.term "title" "rust") rfl⟩

end SearchFilter
