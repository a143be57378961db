import Mathlib.Algebra.GroupWithZero.Nat
import SearchFilter.Proofs.Conversion.Phrase
import SearchFilter.Proofs.Conversion.Shape
/-!
# Sizes of converted filters

The number of filters in a converted filter can be counted on the query. The filter of a boolean
query is at most two levels deeper than the query, and that of a phrase as deep as its longest path.
-/
namespace SearchFilter

open Conversion

namespace Filter

theorem childrenCount_eq_sum (children : List Filter) :
    childrenCount children = (children.map nodeCount).sum := by
  induction children with
  | nil => rfl
  | cons child children ih => rw [childrenCount, ih, List.map_cons, List.sum_cons]

theorem childrenDepth_eq_foldr (children : List Filter) :
    childrenDepth children = (children.map depth).foldr max 0 := by
  induction children with
  | nil => rfl
  | cons child children ih => rw [childrenDepth, ih, List.map_cons, List.foldr_cons]

theorem sizes_words (op : Comparison) (words : List PhraseWord) :
    childrenCount (words.map fun w => .compare op w.field (.text w.text)) = words.length ∧
      childrenDepth (words.map fun w => .compare op w.field (.text w.text)) ≤ 1 := by
  induction words with
  | nil => exact ⟨rfl, Nat.zero_le 1⟩
  | cons w words ih =>
    rw [List.map_cons, childrenCount, childrenDepth, ih.1]
    exact ⟨Nat.add_comm _ _, Nat.max_le.mpr ⟨le_rfl, ih.2⟩⟩

theorem childrenDepth_le_childrenCount {children : List Filter}
    (each : ∀ child ∈ children, child.depth ≤ child.nodeCount) :
    childrenDepth children ≤ childrenCount children := by
  induction children with
  | nil => exact le_rfl
  | cons child children ih =>
    rw [List.forall_mem_cons] at each
    have hchild := each.1
    have hchildren := ih each.2
    rw [childrenDepth, childrenCount]
    omega

theorem depth_le_nodeCount (filter : Filter) : filter.depth ≤ filter.nodeCount := by
  induction filter with
  | compare op field operand ih =>
    cases operand with
    | document inner => exact Nat.add_le_add_left (ih inner rfl) 1
    | _ => exact le_rfl
  | regex field pattern => exact le_rfl
  | present field => exact le_rfl
  | combine op children ih => exact Nat.add_le_add_left (childrenDepth_le_childrenCount ih) 1
  | negate child ih => exact Nat.add_le_add_left ih 1

end Filter

namespace Path

/-- How many segments of a field count: those after the last one that is not empty do not, but at
least one does. -/
def segmentCount (separator : Char) (field : String) : Nat :=
  max 1 ((field.toList.splitOn separator).rdropWhile List.isEmpty).length

theorem splitOn_eq_segments (separator : Char) (cs : List Char) :
    cs.splitOn separator = (segments separator cs).1 :: (segments separator cs).2 := by
  conv_lhs => rw [← intercalate_segments separator cs]
  exact List.splitOn_intercalate separator (not_mem_segments separator cs) (List.cons_ne_nil _ _)

private theorem max_one_length_rdropWhile {α : Type} (p : α → Bool) (a : α) (as : List α) :
    max 1 ((a :: as).rdropWhile p).length = (as.rdropWhile p).length + 1 := by
  induction as using List.reverseRecOn with
  | nil =>
    rw [List.rdropWhile_singleton]
    split <;> rfl
  | append_singleton as last ih =>
    rw [← List.cons_append, List.rdropWhile_concat, List.rdropWhile_concat]
    split
    · exact ih
    · simp

theorem length_names (separator : Char) (field : String) :
    (names separator field).length = segmentCount separator field := by
  rw [segmentCount, splitOn_eq_segments, max_one_length_rdropWhile, names, List.length_map]
  rfl

theorem Chain.sizes {text : String} {names : List String} {filter : Filter}
    (h : Chain text names filter) :
    filter.nodeCount = names.length ∧ filter.depth = names.length := by
  induction h with
  | single name => exact ⟨rfl, rfl⟩
  | cons name _ ih =>
    rw [Filter.nodeCount, Filter.operandCount, Filter.depth, Filter.operandDepth, ih.1, ih.2,
      List.length_cons, Nat.add_comm]
    exact ⟨rfl, rfl⟩

theorem nodeCount_filter (separator : Char) (field text : String) :
    (filter separator field text).nodeCount = segmentCount separator field := by
  rw [(filter_chain separator field text).sizes.1, length_names]

theorem depth_filter (separator : Char) (field text : String) :
    (filter separator field text).depth = segmentCount separator field := by
  rw [(filter_chain separator field text).sizes.2, length_names]

end Path

namespace Leaf

def clauseCount : Leaf → Nat
  | phrase words => 1 + words.length
  | numericRange .. | textRange .. => 3
  | term .. | wildcard .. | startsWith .. | regexp .. | fuzzy .. | matchAll | foreign _ => 1

def rootCount (separator : Char) : Leaf → Nat
  | phrase words => 1 + (words.map fun w => Path.segmentCount separator w.field).sum
  | l => l.clauseCount

end Leaf

namespace Query

mutual

def clauseCount : Query → Nat
  | leaf l => l.clauseCount
  | boolean clauses => 1 + clausesCount clauses

def clausesCount : List (Clause Query) → Nat
  | [] => 0
  | ⟨query, _⟩ :: clauses => clauseCount query + clausesCount clauses

end

/-- How many filters a whole query becomes. -/
def filterCount (separator : Char) : Query → Nat
  | leaf l => l.rootCount separator
  | boolean clauses => 1 + clausesCount clauses

end Query

namespace Conversion

variable {settings : Settings}

section Induction

variable {R : Query → Filter → Prop}

theorem clauses_forall₂ {scope : Scope} {inner : List (Clause Query)} {children : List Filter}
    (each : ∀ c ∈ inner, ∀ filter,
      (clause settings scope c.occurrence c.query).result = .ok filter → R c.query filter)
    (h : (clauses settings scope inner).result = .ok children) :
    List.Forall₂ (fun c f => R c.query f) inner children := by
  rw [clauses_eq_ok] at h
  induction h with
  | nil => exact .nil
  | cons hfirst _ ih =>
    rw [List.forall_mem_cons] at each
    exact .cons (each.1 _ hfirst) (ih each.2)

/-- What holds of the filters of leaves, and of a disjunction whenever it holds of what is below,
holds of the filters of all clauses. -/
theorem clause_induction
    (leaf : ∀ l occurrence filter, l.rendering? occurrence = some filter → R (.leaf l) filter)
    (boolean : ∀ inner children, List.Forall₂ (fun c f => R c.query f) inner children →
      R (.boolean inner) (.or children))
    {query : Query} {scope : Scope} {own : Occurrence} {filter : Filter}
    (h : (clause settings scope own query).result = .ok filter) : R query filter := by
  induction query generalizing scope own filter with
  | leaf l => exact leaf l _ filter (clauseLeaf_eq_ok.mp h)
  | boolean inner ih =>
    obtain ⟨children, hchildren, rfl⟩ := clause_boolean_eq_ok.mp h
    exact boolean inner children (clauses_forall₂ (fun c hc _ hf => ih c hc hf) hchildren)

end Induction

def IsCounted (query : Query) (filter : Filter) : Prop :=
  filter.nodeCount = query.clauseCount

/-- The filter of a clause is as deep as the query or up to two levels deeper. -/
def FitsDepth (query : Query) (filter : Filter) : Prop :=
  query.depth ≤ filter.depth ∧ filter.depth ≤ query.depth + 2

theorem rendering?_sizes {l : Leaf} {occurrence : Occurrence} {filter : Filter}
    (h : l.rendering? occurrence = some filter) :
    filter.nodeCount = l.clauseCount ∧ filter.depth ≤ 2 := by
  cases l with
  | term field text =>
    cases occurrence <;>
    · obtain rfl := Option.some.inj h
      exact ⟨rfl, Nat.le_succ 1⟩
  | phrase words =>
    obtain ⟨op, rfl⟩ :
        ∃ op, filter = .and (words.map fun w => .compare op w.field (.text w.text)) := by
      cases occurrence <;> exact ⟨_, (Option.some.inj h).symm⟩
    obtain ⟨hcount, hdepth⟩ := Filter.sizes_words op words
    rw [Filter.nodeCount, Filter.depth, hcount]
    exact ⟨rfl, Nat.add_le_add_left hdepth 1⟩
  | numericRange field lower upper =>
    obtain rfl := Option.some.inj h
    exact ⟨rfl, le_rfl⟩
  | textRange field lower upper =>
    cases lower <;> cases upper <;>
    · obtain rfl := Option.some.inj h
      exact ⟨rfl, le_rfl⟩
  | _ => simp [Leaf.rendering?] at h

theorem childrenCount_of_forall₂ {inner : List (Clause Query)} {children : List Filter}
    (h : List.Forall₂ (fun c f => IsCounted c.query f) inner children) :
    Filter.childrenCount children = Query.clausesCount inner := by
  induction h with
  | nil => rfl
  | cons hfirst _ ih => rw [Filter.childrenCount, Query.clausesCount, hfirst, ih]

theorem childrenDepth_of_forall₂ {inner : List (Clause Query)} {children : List Filter}
    (h : List.Forall₂ (fun c f => FitsDepth c.query f) inner children) :
    Query.clausesDepth inner ≤ Filter.childrenDepth children ∧
      Filter.childrenDepth children ≤ Query.clausesDepth inner + 2 := by
  induction h with
  | nil => exact ⟨le_rfl, Nat.zero_le _⟩
  | cons hfirst _ ih =>
    rw [FitsDepth] at hfirst
    rw [Filter.childrenDepth, Query.clausesDepth]
    omega

theorem clause_isCounted {query : Query} {scope : Scope} {own : Occurrence} {filter : Filter}
    (h : (clause settings scope own query).result = .ok filter) : IsCounted query filter := by
  refine clause_induction ?_ ?_ h
  · intro l occurrence filter hl
    exact (rendering?_sizes hl).1
  · intro inner children hall
    rw [IsCounted, Filter.nodeCount, Query.clauseCount, childrenCount_of_forall₂ hall]

theorem clause_fitsDepth {query : Query} {scope : Scope} {own : Occurrence} {filter : Filter}
    (h : (clause settings scope own query).result = .ok filter) : FitsDepth query filter := by
  refine clause_induction ?_ ?_ h
  · intro l occurrence filter hl
    exact ⟨Nat.zero_le _, (rendering?_sizes hl).2⟩
  · intro inner children hall
    have hchildren := childrenDepth_of_forall₂ hall
    rw [FitsDepth, Filter.depth, Query.depth]
    omega

theorem rootLeaf_nodeCount {settings : Settings} {l : Leaf} {filter : Filter}
    (h : (rootLeaf settings l).result = .ok filter) :
    filter.nodeCount = l.rootCount settings.separator := by
  cases l with
  | phrase words =>
    obtain rfl := Except.ok.inj h
    rw [Filter.nodeCount, Filter.childrenCount_eq_sum, List.map_map, Leaf.rootCount]
    simp only [Function.comp_def, Path.nodeCount_filter]
  | numericRange field lower upper =>
    obtain rfl := Except.ok.inj h
    rfl
  | textRange field lower upper =>
    -- the same filter as in a required clause
    have hclause : (Leaf.textRange field lower upper).rendering? .required = some filter := by
      rw [rendering?_textRange]
      exact congrArg some (Except.ok.inj h)
    exact (rendering?_sizes hclause).1
  | foreign kind => cases h
  | _ =>
    obtain rfl := Except.ok.inj h
    rfl

end Conversion

theorem Query.nodeCount_of_toFilter {settings : Settings} {query : Query} {filter : Filter}
    (h : (query.toFilter settings).result = .ok filter) :
    filter.nodeCount = query.filterCount settings.separator := by
  cases query with
  | leaf l => exact rootLeaf_nodeCount h
  | boolean clauses =>
    obtain ⟨children, hchildren, rfl⟩ := root_boolean_eq_ok.mp h
    have hcount := childrenCount_of_forall₂
      (clauses_forall₂ (fun _ _ _ h => clause_isCounted h) hchildren)
    rw [Filter.nodeCount, filterCount, hcount]

/-- The number of filters in a converted filter is counted on the query alone. The filter of a
boolean query is as deep as the query or up to two levels deeper, that of a phrase one level deeper
than the longest path in it, and no filter is deeper than the number of filters in it. -/
theorem Query.toFilter_sizes (settings : Settings) (query : Query) (filter : Filter)
    (accepted : (query.toFilter settings).result = .ok filter) :
    filter.nodeCount = query.filterCount settings.separator ∧
    (∀ clauses, query = boolean clauses →
      query.depth ≤ filter.depth ∧ filter.depth ≤ query.depth + 2) ∧
    (∀ words, query = leaf (.phrase words) → filter.depth =
      1 + (words.map fun w => Path.segmentCount settings.separator w.field).foldr max 0) ∧
    filter.depth ≤ filter.nodeCount := by
  refine ⟨nodeCount_of_toFilter accepted, ?_, ?_, filter.depth_le_nodeCount⟩
  · rintro clauses rfl
    obtain ⟨children, hchildren, rfl⟩ := root_boolean_eq_ok.mp accepted
    have hdepth := childrenDepth_of_forall₂
      (clauses_forall₂ (fun _ _ _ h => clause_fitsDepth h) hchildren)
    rw [Filter.depth, depth]
    omega
  · rintro words rfl
    obtain rfl := Except.ok.inj accepted
    rw [Filter.depth, Filter.childrenDepth_eq_foldr, List.map_map]
    simp only [Function.comp_def, Path.depth_filter]

/-- Empty segments count in front of others and between them, and where there is no other. -/
theorem Query.toFilter_sizes_paths :
    let query := leaf (.phrase [⟨".a..b..", "rust"⟩, ⟨"", "lang"⟩])
    ∃ filter, (query.toFilter ⟨"_id", '.'⟩).result = .ok filter ∧
      filter.nodeCount = 1 + (4 + 1) ∧ filter.depth = 1 + 4 := by
  intro query
  obtain ⟨hcount, -, hdepth, -⟩ := toFilter_sizes ⟨"_id", '.'⟩ query _ rfl
  exact ⟨_, rfl, hcount.trans (by decide), (hdepth _ rfl).trans (by decide)⟩

end SearchFilter
