import Mathlib.Data.Set.List
import SearchFilter.Proofs.Conversion.Path
import SearchFilter.Proofs.Conversion.Shape
import SearchFilter.Proofs.Encoding.Sortable
/-!
# The filters that conversions give

A grammar of filters, and the proof that the converted filters are exactly those of the grammar: a
rendering never leaves it, and for each of its filters there are occurrences that produce it.
-/
namespace SearchFilter

open Conversion Sortable

namespace Filter

def IsWord (op : Comparison) (filter : Filter) : Prop :=
  ∃ field text, filter = .compare op field (.text text)

/-- The end of a range of texts. -/
inductive IsTextBound : Operand → Prop
  | null : IsTextBound .null
  | text (value : String) : IsTextBound (.text value)

/-- Both bounds of a range on one field: two numbers, or each a text or null. -/
inductive IsInterval : Filter → Prop
  | ints (field : String) (lower upper : Int64) :
      IsInterval (.and [.gte field (.int lower), .lte field (.int upper)])
  | texts (field : String) {lower upper : Operand} (isLower : IsTextBound lower)
      (isUpper : IsTextBound upper) : IsInterval (.and [.gte field lower, .lte field upper])

/-- A leaf of a boolean query that compares with texts by this comparison. -/
inductive HasSign (op : Comparison) : Filter → Prop
  | word (field text : String) : HasSign op (.compare op field (.text text))
  | words (children : List Filter) (nonempty : children ≠ [])
      (words : ∀ child ∈ children, IsWord op child) : HasSign op (.and children)

/-- Filters that do not mix equations with inequations. -/
def Unmixed (children : List Filter) : Prop :=
  ¬((∃ child ∈ children, HasSign .eq child) ∧ ∃ child ∈ children, HasSign .ne child)

/-- The filters of clauses. -/
inductive IsClause : Filter → Prop
  | word (op : Comparison) (sign : op = .eq ∨ op = .ne) (field text : String) :
      IsClause (.compare op field (.text text))
  | interval {filter : Filter} (h : IsInterval filter) : IsClause filter
  | words (op : Comparison) (sign : op = .eq ∨ op = .ne) (children : List Filter)
      (words : ∀ child ∈ children, IsWord op child) : IsClause (.and children)
  | disjunction (children : List Filter) (each : ∀ child ∈ children, IsClause child)
      (unmixed : Unmixed children) : IsClause (.or children)

/-- The filters of whole queries. -/
inductive IsConverted (settings : Settings) : Filter → Prop
  | word (field text : String) : IsConverted settings (.eq field (.text text))
  | pattern (field pattern : String) : IsConverted settings (.regex field pattern)
  | presence : IsConverted settings (.present settings.matchAllField)
  | interval {filter : Filter} (h : IsInterval filter) : IsConverted settings filter
  | phrase (children : List Filter)
      (each : ∀ child ∈ children, Path.IsChain settings.separator child) :
      IsConverted settings (.all children)
  | conjunction (children : List Filter) (each : ∀ child ∈ children, IsClause child) :
      IsConverted settings (.and children)

end Filter

open SearchFilter.Filter

namespace Conversion

variable {settings : Settings}

/-- The comparison of words under an occurrence. -/
private def sign : Occurrence → Comparison
  | .required => .eq
  | .optional | .excluded => .ne

/-- The comparison that words under an occurrence never have. -/
private def contrary : Occurrence → Comparison
  | .required => .ne
  | .optional | .excluded => .eq

private theorem sign_eq_or (occurrence : Occurrence) :
    sign occurrence = .eq ∨ sign occurrence = .ne := by
  cases occurrence <;> simp [sign]

private theorem rendering?_term (occurrence : Occurrence) (field text : String) :
    (Leaf.term field text).rendering? occurrence =
      some (.compare (sign occurrence) field (.text text)) := by
  cases occurrence <;> rfl

private theorem rendering?_phrase (occurrence : Occurrence) (words : List PhraseWord) :
    (Leaf.phrase words).rendering? occurrence =
      some (.and (words.map fun w => .compare (sign occurrence) w.field (.text w.text))) := by
  cases occurrence <;> rfl

private theorem isTextBound_ofBound (bound : Option String) : IsTextBound (.ofBound bound) := by
  cases bound with
  | none => exact .null
  | some value => exact .text value

private theorem isInterval_textRange (field : String) (lower upper : Option String) :
    IsInterval (textRange field lower upper) :=
  .texts field (isTextBound_ofBound lower) (isTextBound_ofBound upper)

private theorem exists_textRange {lower upper : Operand} (hlower : IsTextBound lower)
    (hupper : IsTextBound upper) (field : String) :
    ∃ least greatest,
      textRange field least greatest = .and [.gte field lower, .lte field upper] := by
  have hbound {operand : Operand} (h : IsTextBound operand) :
      ∃ bound, .ofBound bound = operand := by
    cases h with
    | null => exact ⟨none, rfl⟩
    | text value => exact ⟨some value, rfl⟩
  obtain ⟨least, rfl⟩ := hbound hlower
  obtain ⟨greatest, rfl⟩ := hbound hupper
  exact ⟨least, greatest, rfl⟩

private theorem not_hasSign_of_isInterval {op : Comparison} {filter : Filter}
    (h : IsInterval filter) : ¬HasSign op filter := by
  intro hsign
  cases h with
  | ints field lower upper =>
    cases hsign with
    | words _ _ hwords =>
      obtain ⟨_, _, heq⟩ := hwords _ List.mem_cons_self
      simp at heq
  | texts field _ _ =>
    cases hsign with
    | words _ _ hwords =>
      obtain ⟨_, _, hlower⟩ := hwords _ List.mem_cons_self
      obtain ⟨_, _, hupper⟩ := hwords _ (List.mem_cons_of_mem _ List.mem_cons_self)
      simp only [Filter.compare.injEq] at hlower hupper
      exact absurd (hlower.1.trans hupper.1.symm) (by decide)

private theorem rendering?_isClause {l : Leaf} {occurrence : Occurrence} {filter : Filter}
    (h : l.rendering? occurrence = some filter) :
    IsClause filter ∧ ¬HasSign (contrary occurrence) filter := by
  have hsign : sign occurrence ≠ contrary occurrence := by cases occurrence <;> decide
  cases l with
  | term field text =>
    rw [rendering?_term, Option.some.injEq] at h
    subst h
    refine ⟨.word _ (sign_eq_or occurrence) field text, ?_⟩
    generalize hop : sign occurrence = op at hsign
    intro hcontrary
    cases hcontrary
    exact hsign rfl
  | phrase words =>
    rw [rendering?_phrase, Option.some.injEq] at h
    subst h
    refine ⟨.words _ (sign_eq_or occurrence) _ ?_, ?_⟩
    · intro child hchild
      obtain ⟨w, -, rfl⟩ := List.mem_map.mp hchild
      exact ⟨w.field, w.text, rfl⟩
    · intro hcontrary
      cases hcontrary with
      | words _ hne hwords =>
        cases words with
        | nil => exact hne rfl
        | cons w words =>
          obtain ⟨_, _, heq⟩ := hwords _ List.mem_cons_self
          exact hsign (Filter.compare.inj heq).1
  | numericRange field lower upper =>
    obtain rfl := Option.some.inj h
    have hinterval :=
      IsInterval.ints field (endpoint Int64.minValue lower) (endpoint Int64.maxValue upper)
    exact ⟨.interval hinterval, not_hasSign_of_isInterval hinterval⟩
  | textRange field lower upper =>
    rw [rendering?_textRange, Option.some.injEq] at h
    subst h
    have hinterval := isInterval_textRange field lower upper
    exact ⟨.interval hinterval, not_hasSign_of_isInterval hinterval⟩
  | _ => simp [Leaf.rendering?] at h

private theorem exists_clause_of_mem {scope : Scope} {inner : List (Clause Query)}
    {filters : List Filter} (h : (clauses settings scope inner).result = .ok filters)
    {filter : Filter} (hmem : filter ∈ filters) :
    ∃ c ∈ inner, (clause settings scope c.occurrence c.query).result = .ok filter := by
  have hall := clauses_eq_ok.mp h
  obtain ⟨i, hi, rfl⟩ := List.getElem_of_mem hmem
  have hi' : i < inner.length := hall.length_eq ▸ hi
  exact ⟨inner[i], List.getElem_mem hi', hall.get hi' hi⟩

private theorem clause_isClause (query : Query) {scope : Scope} {own : Occurrence}
    {filter : Filter} (h : (clause settings scope own query).result = .ok filter) :
    IsClause filter ∧ ¬HasSign (contrary (scope.governing own)) filter := by
  induction query generalizing scope own filter with
  | leaf l => exact rendering?_isClause (clauseLeaf_eq_ok.mp h)
  | boolean inner ih =>
    obtain ⟨children, hchildren, rfl⟩ := clause_boolean_eq_ok.mp h
    have heach : ∀ child ∈ children, IsClause child ∧ ¬HasSign (contrary own) child := by
      intro child hchild
      obtain ⟨c, hc, hr⟩ := exists_clause_of_mem hchildren hchild
      exact ih c hc hr
    refine ⟨.disjunction children (fun child hchild => (heach child hchild).1) ?_, ?_⟩
    · -- the occurrence of this clause counts for all leaves among the children
      intro h
      rcases h with ⟨⟨e, he, hequal⟩, n, hn, hunequal⟩
      cases own with
      | required => exact (heach n hn).2 hunequal
      | optional => exact (heach e he).2 hequal
      | excluded => exact (heach e he).2 hequal
    · intro hsign
      cases hsign

/-- Where a filter with a sign may stand: in a clause of another boolean query, the occurrence there
must not have the contrary sign. -/
private def Admits (scope : Scope) (filter : Filter) : Prop :=
  ∀ outer, scope = .clause outer → ¬HasSign (contrary outer) filter

private theorem sign_eq_of_ne_contrary {occurrence : Occurrence} {op : Comparison}
    (hop : op = .eq ∨ op = .ne) (h : op ≠ contrary occurrence) : sign occurrence = op := by
  rcases hop with rfl | rfl <;> cases occurrence <;> simp_all [sign, contrary]

private theorem exists_governing {scope : Scope} {op : Comparison} {filter : Filter}
    (hop : op = .eq ∨ op = .ne) (hsign : HasSign op filter) (hscope : Admits scope filter) :
    ∃ own, sign (scope.governing own) = op := by
  cases scope with
  | root =>
    rcases hop with rfl | rfl
    · exact ⟨.required, rfl⟩
    · exact ⟨.excluded, rfl⟩
  | clause outer =>
    have hne : op ≠ contrary outer := fun heq => hscope outer rfl (heq ▸ hsign)
    exact ⟨outer, sign_eq_of_ne_contrary hop hne⟩

private theorem exists_map_eq {α : Type} {f : α → Filter} {children : List Filter}
    (h : ∀ child ∈ children, ∃ a, f a = child) : ∃ as : List α, as.map f = children := by
  have hrange : children ∈ Set.range (List.map f) := by
    rw [Set.range_list_map]
    exact h
  exact hrange

private theorem exists_leaf_of_isInterval {filter : Filter} (h : IsInterval filter) :
    ∃ l : Leaf, (∀ occurrence, l.rendering? occurrence = some filter) ∧
      ∀ settings, (rootLeaf settings l).result = .ok filter := by
  cases h with
  | ints field lower upper =>
    refine ⟨Leaf.longRange field lower upper, ?_, ?_⟩
    · intro occurrence
      rw [Leaf.longRange, rendering?_numericRange, bound_encodeLong, bound_encodeLong, interval]
    · intro settings
      rw [Leaf.longRange, rootLeaf, numericRange_result, bound_encodeLong, bound_encodeLong,
        interval]
  | texts field isLower isUpper =>
    obtain ⟨least, greatest, hrange⟩ := exists_textRange isLower isUpper field
    rw [← hrange]
    exact ⟨.textRange field least greatest, rendering?_textRange field least greatest,
      fun _ => rfl⟩

private theorem exists_clauses {scope : Scope} {children : List Filter}
    (h : ∀ child ∈ children, ∃ query own, (clause settings scope own query).result = .ok child) :
    ∃ inner, (clauses settings scope inner).result = .ok children := by
  induction children with
  | nil => exact ⟨[], rfl⟩
  | cons child children ih =>
    obtain ⟨query, own, hquery⟩ := h child List.mem_cons_self
    obtain ⟨inner, hinner⟩ := ih fun c hc => h c (List.mem_cons_of_mem _ hc)
    exact ⟨⟨query, own⟩ :: inner, clauses_eq_ok.mpr (.cons hquery (clauses_eq_ok.mp hinner))⟩

/-- Every filter of the grammar is that of a clause with a suitable occurrence. -/
private theorem exists_clause {filter : Filter} (h : IsClause filter) {scope : Scope}
    (hscope : Admits scope filter) :
    ∃ query own, (clause settings scope own query).result = .ok filter := by
  induction h generalizing scope with
  | word op hop field text =>
    obtain ⟨own, hown⟩ := exists_governing hop (.word field text) hscope
    refine ⟨.leaf (.term field text), own, clauseLeaf_eq_ok.mpr ?_⟩
    rw [rendering?_term, hown]
  | interval hinterval =>
    obtain ⟨l, hl, -⟩ := exists_leaf_of_isInterval hinterval
    exact ⟨.leaf l, .required, clauseLeaf_eq_ok.mpr (hl _)⟩
  | words op hop children hwords =>
    by_cases hempty : children = []
    · subst hempty
      refine ⟨.leaf (.phrase []), .required, clauseLeaf_eq_ok.mpr ?_⟩
      rw [rendering?_phrase, List.map_nil]
    · obtain ⟨own, hown⟩ := exists_governing hop (.words children hempty hwords) hscope
      obtain ⟨words, rfl⟩ := exists_map_eq (α := PhraseWord)
        (f := fun w => .compare op w.field (.text w.text)) fun child hchild => by
          obtain ⟨field, text, rfl⟩ := hwords child hchild
          exact ⟨⟨field, text⟩, rfl⟩
      refine ⟨.leaf (.phrase words), own, clauseLeaf_eq_ok.mpr ?_⟩
      rw [rendering?_phrase, hown]
  | disjunction children _ hunmixed ih =>
    -- the occurrence that all leaves among the children get
    have hexists : ∃ own : Occurrence, ∀ child ∈ children, ¬HasSign (contrary own) child := by
      by_cases hequal : ∃ child ∈ children, HasSign .eq child
      · exact ⟨.required, fun child hchild hsign => hunmixed ⟨hequal, child, hchild, hsign⟩⟩
      · exact ⟨.excluded, fun child hchild hsign => hequal ⟨child, hchild, hsign⟩⟩
    obtain ⟨own, hown⟩ := hexists
    have hclauses : ∀ child ∈ children,
        ∃ query inner, (clause settings (.clause own) inner query).result = .ok child := by
      intro child hchild
      apply ih child hchild
      rintro outer hscope'
      obtain rfl := Scope.clause.inj hscope'
      exact hown child hchild
    obtain ⟨inner, hinner⟩ := exists_clauses hclauses
    exact ⟨.boolean inner, own, clause_boolean_eq_ok.mpr ⟨children, hinner, rfl⟩⟩

theorem isConverted_of_toFilter {settings : Settings} {query : Query} {filter : Filter}
    (h : (query.toFilter settings).result = .ok filter) : IsConverted settings filter := by
  rw [toFilter_result] at h
  cases query with
  | leaf l =>
    cases l with
    | numericRange field lower upper =>
      obtain rfl := Except.ok.inj h
      exact .interval (.ints field _ _)
    | textRange field lower upper =>
      obtain rfl := Except.ok.inj h
      exact .interval (isInterval_textRange field lower upper)
    | phrase words =>
      obtain rfl := Except.ok.inj h
      apply IsConverted.phrase
      intro child hchild
      obtain ⟨w, -, rfl⟩ := List.mem_map.mp hchild
      exact Path.filter_isChain settings.separator w.field w.text
    | term field text =>
      obtain rfl := Except.ok.inj h
      exact .word field text
    | matchAll =>
      obtain rfl := Except.ok.inj h
      exact .presence
    | foreign kind => cases h
    | _ =>
      obtain rfl := Except.ok.inj h
      exact .pattern _ _
  | boolean inner =>
    obtain ⟨children, hchildren, rfl⟩ := root_boolean_eq_ok.mp h
    apply IsConverted.conjunction
    intro child hchild
    obtain ⟨c, -, hc⟩ := exists_clause_of_mem hchildren hchild
    exact (clause_isClause c.query hc).1

theorem exists_toFilter_of_isConverted {settings : Settings} {filter : Filter}
    (h : IsConverted settings filter) :
    ∃ query : Query, (query.toFilter settings).result = .ok filter := by
  cases h with
  | word field text => exact ⟨.leaf (.term field text), rfl⟩
  | pattern field pattern => exact ⟨.leaf (.regexp field pattern), rfl⟩
  | presence => exact ⟨.leaf .matchAll, rfl⟩
  | interval hinterval =>
    obtain ⟨l, -, hl⟩ := exists_leaf_of_isInterval hinterval
    exact ⟨.leaf l, hl settings⟩
  | phrase children heach =>
    obtain ⟨words, rfl⟩ := exists_map_eq (α := PhraseWord)
      (f := fun w => Path.filter settings.separator w.field w.text) fun child hchild => by
        obtain ⟨field, text, rfl⟩ := (heach child hchild).exists_filter
        exact ⟨⟨field, text⟩, rfl⟩
    exact ⟨.leaf (.phrase words), rfl⟩
  | conjunction children heach =>
    have hadmits (child : Filter) : Admits .root child := nofun
    obtain ⟨inner, hinner⟩ := exists_clauses fun child hchild =>
      exists_clause (heach child hchild) (hadmits child)
    exact ⟨.boolean inner, root_boolean_eq_ok.mpr ⟨children, hinner, rfl⟩⟩

/-- What no filter inside a clause is: a negation, a match of a pattern, a presence, a comparison
with a document, or a disjunction of mixed signs. -/
private def Ordinary : Filter → Prop
  | .compare _ _ (.document _) => False
  | .regex _ _ => False
  | .present _ => False
  | .negate _ => False
  | .or children => Unmixed children
  | _ => True

private theorem ordinary_of_isWord {op : Comparison} {child filter : Filter} (h : IsWord op child)
    (hmem : filter ∈ child.subfilters) : Ordinary filter := by
  obtain ⟨field, text, rfl⟩ := h
  obtain rfl : filter = .compare op field (.text text) := by
    simpa [subfilters, operandSubfilters] using hmem
  trivial

private theorem ordinary_of_isInterval {child filter : Filter} (h : IsInterval child)
    (hmem : filter ∈ child.subfilters) : Ordinary filter := by
  cases h with
  | ints field lower upper =>
    simp only [subfilters, childrenSubfilters, operandSubfilters, List.append_nil,
      List.cons_append, List.nil_append, List.mem_cons, List.not_mem_nil, or_false] at hmem
    rcases hmem with rfl | rfl | rfl <;> trivial
  | texts field isLower isUpper =>
    cases isLower <;> cases isUpper <;>
    · simp only [subfilters, childrenSubfilters, operandSubfilters, List.append_nil,
        List.cons_append, List.nil_append, List.mem_cons, List.not_mem_nil, or_false] at hmem
      rcases hmem with rfl | rfl | rfl <;> trivial

private theorem ordinary_of_isClause {child filter : Filter} (h : IsClause child)
    (hmem : filter ∈ child.subfilters) : Ordinary filter := by
  induction h generalizing filter with
  | word op _ field text => exact ordinary_of_isWord ⟨field, text, rfl⟩ hmem
  | interval hinterval => exact ordinary_of_isInterval hinterval hmem
  | words op _ children hwords =>
    rcases List.mem_cons.mp hmem with rfl | hmem
    · trivial
    · obtain ⟨c, hc, hmem⟩ := mem_childrenSubfilters.mp hmem
      exact ordinary_of_isWord (hwords c hc) hmem
  | disjunction children _ hunmixed ih =>
    rcases List.mem_cons.mp hmem with rfl | hmem
    · exact hunmixed
    · obtain ⟨c, hc, hmem⟩ := mem_childrenSubfilters.mp hmem
      exact ih c hc hmem

private theorem compare_of_chain {text : String} {names : List String} {child filter : Filter}
    (h : Path.Chain text names child) (hmem : filter ∈ child.subfilters) :
    ∃ field operand, filter = .eq field operand := by
  induction h with
  | single name =>
    obtain rfl : filter = .eq name (.text text) := by
      simpa [subfilters, operandSubfilters] using hmem
    exact ⟨name, _, rfl⟩
  | cons name _ ih =>
    rcases List.mem_cons.mp hmem with rfl | hmem
    · exact ⟨name, _, rfl⟩
    · exact ih hmem

/-- What stands below the root is ordinary, or an equation of a chain. -/
private theorem below_of_isConverted {settings : Settings} {filter g : Filter}
    (h : IsConverted settings filter) (hg : g ∈ filter.subfilters.tail) :
    Ordinary g ∨
      (∃ children, filter = .all children) ∧ ∃ field operand, g = .eq field operand := by
  cases h with
  | word field text => cases hg
  | pattern field pattern => cases hg
  | presence => cases hg
  | interval hinterval => exact .inl (ordinary_of_isInterval hinterval (List.mem_of_mem_tail hg))
  | phrase children heach =>
    obtain ⟨child, hchild, hg⟩ := mem_childrenSubfilters.mp hg
    obtain ⟨_, _, hchain, -⟩ := heach child hchild
    exact .inr ⟨⟨children, rfl⟩, compare_of_chain hchain hg⟩
  | conjunction children heach =>
    obtain ⟨child, hchild, hg⟩ := mem_childrenSubfilters.mp hg
    exact .inl (ordinary_of_isClause (heach child hchild) hg)

private theorem root_of_isConverted {settings : Settings} {filter : Filter}
    (h : IsConverted settings filter) :
    (∀ child, filter ≠ .negate child) ∧
      (∀ op field inner, filter ≠ .compare op field (.document inner)) ∧
      (∀ children, filter ≠ .or children) := by
  cases h with
  | interval hinterval => cases hinterval <;> simp
  | _ => simp

private theorem mem_subfilters {filter g : Filter} (h : g ∈ filter.subfilters) :
    g = filter ∨ g ∈ filter.subfilters.tail := by
  cases filter <;> exact List.mem_cons.mp h

end Conversion

/-- A filter comes from a query exactly when it is in the grammar. So no converted filter negates,
holds a document except below a list of chains, matches a pattern or asks for a presence below the
root, or has a disjunction of mixed signs. -/
theorem Filter.exists_toFilter_iff (settings : Settings) (filter : Filter) :
    ((∃ query : Query, (query.toFilter settings).result = .ok filter) ↔
      IsConverted settings filter) ∧
    ((∃ query : Query, (query.toFilter settings).result = .ok filter) →
      (∀ g ∈ filter.subfilters, ∀ child, g ≠ .negate child) ∧
      ((∀ children, filter ≠ .all children) →
        ∀ g ∈ filter.subfilters, ∀ op field inner, g ≠ .compare op field (.document inner)) ∧
      (∀ g ∈ filter.subfilters.tail,
        (∀ field pattern, g ≠ .regex field pattern) ∧ ∀ field, g ≠ .present field) ∧
      (∀ children, .or children ∈ filter.subfilters → Unmixed children)) := by
  have hiff : (∃ query : Query, (query.toFilter settings).result = .ok filter) ↔
      IsConverted settings filter :=
    ⟨fun ⟨_, h⟩ => isConverted_of_toFilter h, exists_toFilter_of_isConverted⟩
  refine ⟨hiff, fun h => ?_⟩
  have hconverted := hiff.mp h
  obtain ⟨hnegate, hdocument, hor⟩ := root_of_isConverted hconverted
  refine ⟨?_, ?_, ?_, ?_⟩
  · rintro g hg child rfl
    rcases mem_subfilters hg with heq | hg
    · exact hnegate child heq.symm
    · rcases below_of_isConverted hconverted hg with hordinary | ⟨-, _, _, heq⟩
      · exact hordinary
      · cases heq
  · rintro hnot g hg op field inner rfl
    rcases mem_subfilters hg with heq | hg
    · exact hdocument op field inner heq.symm
    · rcases below_of_isConverted hconverted hg with hordinary | ⟨⟨children, hall⟩, -⟩
      · exact hordinary
      · exact hnot children hall
  · intro g hg
    rcases below_of_isConverted hconverted hg with hordinary | ⟨-, field, operand, rfl⟩
    · refine ⟨?_, ?_⟩
      · rintro field pattern rfl
        exact hordinary
      · rintro field rfl
        exact hordinary
    · exact ⟨nofun, nofun⟩
  · intro children hg
    rcases mem_subfilters hg with heq | hg
    · exact absurd heq.symm (hor children)
    · rcases below_of_isConverted hconverted hg with hordinary | ⟨-, _, _, heq⟩
      · exact hordinary
      · cases heq

end SearchFilter
