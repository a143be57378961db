import SearchFilter.Filter
import SearchFilter.Proofs.Filter.Tree
import SearchFilter.Proofs.Json.Reading
/-!
# What documents tell about filters

Filters whose fields do not begin with a dollar sign, as operators do, have the same document
exactly when they differ in nothing but conjunctions that stand for lists.
-/
namespace SearchFilter

open Json (Value)

def Connective.withoutAll : Connective → Connective
  | and | all => and
  | or => or

namespace Filter

mutual

/-- The filter with a conjunction for every list that must match as a whole. -/
def withoutAll : Filter → Filter
  | compare op field operand => compare op field (operandWithoutAll operand)
  | regex field pattern => regex field pattern
  | present field => present field
  | combine op children => combine op.withoutAll (childrenWithoutAll children)
  | negate child => negate (withoutAll child)

def operandWithoutAll : Operand → Operand
  | .null => .null
  | .int value => .int value
  | .text value => .text value
  | .document filter => .document (withoutAll filter)

def childrenWithoutAll : List Filter → List Filter
  | [] => []
  | child :: children => withoutAll child :: childrenWithoutAll children

end

/-- No field in a filter begins like an operator. -/
def HasPlainFields (filter : Filter) : Prop :=
  filter.Everywhere fun g => ∀ field, g.field? = some field → field.toList.head? ≠ some '$'

theorem operator_withoutAll (op : Connective) : op.withoutAll.operator = op.operator := by
  cases op <;> rfl

theorem documents_childrenWithoutAll {children : List Filter}
    (each : ∀ child ∈ children, child.withoutAll.document = child.document) :
    documents (childrenWithoutAll children) = documents children := by
  induction children with
  | nil => rfl
  | cons child children ih =>
    have hchild := each child List.mem_cons_self
    have hchildren := ih fun c hc => each c (List.mem_cons_of_mem _ hc)
    rw [childrenWithoutAll, documents, documents, hchild, hchildren]

theorem document_withoutAll (filter : Filter) : filter.withoutAll.document = filter.document := by
  induction filter with
  | compare op field operand ih =>
    have hoperand : operandValue (operandWithoutAll operand) = operandValue operand := by
      cases operand with
      | document inner => exact ih inner rfl
      | _ => rfl
    rw [withoutAll, document, document, hoperand]
  | regex field pattern => rfl
  | present field => rfl
  | combine op children ih =>
    rw [withoutAll, document, document, operator_withoutAll, documents_childrenWithoutAll ih]
  | negate child ih => rw [withoutAll, document, document, ih]

theorem single_isExact (key : String) {value : Value} (h : value.IsExact) :
    (Value.single key value).IsExact := by
  apply Value.IsExact.object
  intro entry hentry
  obtain rfl := List.mem_singleton.mp hentry
  exact h

theorem apply_isExact (op : Comparison) {value : Value} (h : value.IsExact) :
    (op.apply value).IsExact := by
  cases op with
  | eq => exact h
  | ne => exact single_isExact "$ne" h
  | gte => exact single_isExact "$gte" h
  | lte => exact single_isExact "$lte" h

theorem documents_eq_map (children : List Filter) :
    documents children = children.map document := by
  induction children with
  | nil => rfl
  | cons child children ih => rw [documents, ih, List.map_cons]

theorem document_isExact (filter : Filter) : filter.document.IsExact := by
  induction filter with
  | compare op field operand ih =>
    apply single_isExact
    apply apply_isExact
    cases operand with
    | null => exact .scalar trivial
    | int value =>
      have hlow := value.le_toInt
      have hhigh := value.toInt_lt
      refine .scalar ⟨?_, ?_⟩ <;> omega
    | text value => exact .scalar trivial
    | document inner => exact ih inner rfl
  | regex field pattern => exact single_isExact field (single_isExact "$regex" (.scalar trivial))
  | present field => exact single_isExact field (single_isExact "$exists" (.scalar trivial))
  | combine op children ih =>
    apply single_isExact
    apply Value.IsExact.array
    intro item hitem
    rw [documents_eq_map] at hitem
    obtain ⟨child, hchild, rfl⟩ := List.mem_map.mp hitem
    exact ih child hchild
  | negate child ih =>
    apply single_isExact
    apply Value.IsExact.array
    intro item hitem
    obtain rfl := List.mem_singleton.mp hitem
    exact ih

def operators : List String := ["$ne", "$gte", "$lte", "$regex", "$exists"]

def documentKey : Filter → String
  | compare _ field _ => field
  | regex field _ => field
  | present field => field
  | combine op _ => op.operator
  | negate _ => "$nor"

theorem document_eq_single (filter : Filter) :
    ∃ value, filter.document = .single filter.documentKey value := by
  cases filter <;> exact ⟨_, rfl⟩

theorem single_inj {key key' : String} {value value' : Value}
    (h : Value.single key value = .single key' value') : key = key' ∧ value = value' := by
  simpa using h

theorem documentKey_eq {filter other : Filter} (h : filter.document = other.document) :
    filter.documentKey = other.documentKey := by
  obtain ⟨value, hfilter⟩ := document_eq_single filter
  obtain ⟨value', hother⟩ := document_eq_single other
  rw [hfilter, hother] at h
  exact (single_inj h).1

theorem field?_eq_of_hasPlainFields {filter : Filter} (h : filter.HasPlainFields) :
    filter.field? =
      if filter.documentKey.toList.head? = some '$' then none else some filter.documentKey := by
  have hself := h.self
  cases filter with
  | combine op children => cases op <;> simp [field?, documentKey, Connective.operator]
  | negate child => simp [field?, documentKey]
  | _ => exact (if_neg (hself _ rfl)).symm

theorem field?_eq {filter other : Filter} (hfilter : filter.HasPlainFields)
    (hother : other.HasPlainFields) (h : filter.document = other.document) :
    filter.field? = other.field? := by
  rw [field?_eq_of_hasPlainFields hfilter, field?_eq_of_hasPlainFields hother, documentKey_eq h]

theorem documentKey_notMem_operators {filter : Filter} (h : filter.HasPlainFields) :
    filter.documentKey ∉ operators := by
  have hdollar : ∀ key ∈ operators, key.toList.head? = some '$' := by decide
  have hself := h.self
  cases filter with
  | combine op children => cases op <;> simp [documentKey, Connective.operator, operators]
  | negate child => simp [documentKey, operators]
  | _ => exact fun hmem => hself _ rfl (hdollar _ hmem)

/-- The operator in the document of a filter on a field. An equation has none. -/
def operator? : Filter → Option String
  | eq _ _ => none
  | ne _ _ => some "$ne"
  | gte _ _ => some "$gte"
  | lte _ _ => some "$lte"
  | regex _ _ => some "$regex"
  | present _ => some "$exists"
  | combine _ _ => none
  | negate _ => none

/-- The value behind the field and the operator. -/
def assigned : Filter → Value
  | compare _ _ operand => operandValue operand
  | regex _ pattern => .text pattern
  | present _ => .boolean true
  | combine _ _ => .null
  | negate _ => .null

def wrap : Option String → Value → Value
  | none, value => value
  | some operator, value => .single operator value

theorem document_eq_wrap {filter : Filter} {field : String} (h : filter.field? = some field) :
    filter.document = .single field (wrap filter.operator? filter.assigned) := by
  cases filter with
  | compare op field' operand =>
    obtain rfl := Option.some.inj h
    cases op <;> rfl
  | regex field' pattern =>
    obtain rfl := Option.some.inj h
    rfl
  | present field' =>
    obtain rfl := Option.some.inj h
    rfl
  | _ => cases h

theorem operator?_mem {filter : Filter} {operator : String}
    (h : filter.operator? = some operator) : operator ∈ operators := by
  cases filter with
  | compare op field operand => cases op <;> simp_all [operator?, operators]
  | _ => simp_all [operator?, operators]

theorem assigned_ne_single {filter : Filter} (h : filter.HasPlainFields) {operator : String}
    (hoperator : operator ∈ operators) (value : Value) :
    filter.assigned ≠ .single operator value := by
  cases filter with
  | compare op field operand =>
    cases operand with
    | document inner =>
      intro heq
      obtain ⟨value', hsingle⟩ := document_eq_single inner
      have hkey : inner.documentKey = operator := (single_inj (hsingle.symm.trans heq)).1
      exact documentKey_notMem_operators (h.document rfl) (hkey ▸ hoperator)
    | _ => simp [assigned, operandValue]
  | _ => simp [assigned]

/-- The document of a filter on a field determines the field, the operator and the value. -/
theorem parts_eq {filter other : Filter} (hfilter : filter.HasPlainFields)
    (hother : other.HasPlainFields) (h : filter.document = other.document) {field : String}
    (hfield : filter.field? = some field) :
    other.field? = some field ∧ filter.operator? = other.operator? ∧
      filter.assigned = other.assigned := by
  have hfield' : other.field? = some field := (field?_eq hfilter hother h).symm.trans hfield
  rw [document_eq_wrap hfield, document_eq_wrap hfield'] at h
  have hwrap := (single_inj h).2
  refine ⟨hfield', ?_⟩
  -- an operator on one side only would be the key of the value on the other
  cases hop : filter.operator? with
  | none =>
    cases hop' : other.operator? with
    | none =>
      rw [hop, hop'] at hwrap
      exact ⟨rfl, hwrap⟩
    | some operator =>
      rw [hop, hop'] at hwrap
      exact absurd hwrap (assigned_ne_single hfilter (operator?_mem hop') _)
  | some operator =>
    cases hop' : other.operator? with
    | none =>
      rw [hop, hop'] at hwrap
      exact absurd hwrap.symm (assigned_ne_single hother (operator?_mem hop) _)
    | some operator' =>
      rw [hop, hop'] at hwrap
      obtain ⟨rfl, hvalue⟩ := single_inj hwrap
      exact ⟨rfl, hvalue⟩

private def DeterminedByDocument (filter : Filter) : Prop :=
  ∀ other : Filter, filter.HasPlainFields → other.HasPlainFields →
    filter.document = other.document → filter.withoutAll = other.withoutAll

private theorem operandWithoutAll_eq {operand operand' : Operand}
    (each : ∀ inner, operand = .document inner → DeterminedByDocument inner)
    (hplain : ∀ inner, operand = .document inner → inner.HasPlainFields)
    (hplain' : ∀ inner, operand' = .document inner → inner.HasPlainFields)
    (h : operandValue operand = operandValue operand') :
    operandWithoutAll operand = operandWithoutAll operand' := by
  have hscalar (inner : Filter) (s : Json.Scalar) : inner.document ≠ .scalar s := by
    obtain ⟨value, hsingle⟩ := document_eq_single inner
    rw [hsingle]
    exact nofun
  cases operand with
  | document inner =>
    cases operand' with
    | document inner' =>
      have heq := each inner rfl inner' (hplain inner rfl) (hplain' inner' rfl) h
      rw [operandWithoutAll, operandWithoutAll, heq]
    | _ => exact absurd h (hscalar inner _)
  | int value =>
    cases operand' with
    | int value' =>
      obtain rfl : value = value' := by simpa [operandValue, Int64.toInt_inj] using h
      rfl
    | document inner' => exact absurd h.symm (hscalar inner' _)
    | _ => cases h
  | _ =>
    cases operand' with
    | document inner' => exact absurd h.symm (hscalar inner' _)
    | _ => simp_all [operandValue]

private theorem childrenWithoutAll_eq {children children' : List Filter}
    (each : ∀ child ∈ children, DeterminedByDocument child)
    (hplain : ∀ child ∈ children, child.HasPlainFields)
    (hplain' : ∀ child ∈ children', child.HasPlainFields)
    (h : documents children = documents children') :
    childrenWithoutAll children = childrenWithoutAll children' := by
  induction children generalizing children' with
  | nil =>
    cases children' with
    | nil => rfl
    | cons child' children' => cases h
  | cons child children ih =>
    cases children' with
    | nil => cases h
    | cons child' children' =>
      obtain ⟨hchild, hchildren⟩ := List.cons.inj h
      have hfirst := each child List.mem_cons_self child' (hplain child List.mem_cons_self)
        (hplain' child' List.mem_cons_self) hchild
      have hrest := ih (fun c hc => each c (List.mem_cons_of_mem _ hc))
        (fun c hc => hplain c (List.mem_cons_of_mem _ hc))
        (fun c hc => hplain' c (List.mem_cons_of_mem _ hc)) hchildren
      rw [childrenWithoutAll, childrenWithoutAll, hfirst, hrest]

theorem withoutAll_eq_of_operator_eq {op op' : Connective}
    (h : op.operator = op'.operator) : op.withoutAll = op'.withoutAll := by
  cases op <;> cases op' <;> simp_all [Connective.operator, Connective.withoutAll]

theorem compare_operator?_ne (op : Comparison) (field : String) (operand : Operand) :
    (compare op field operand).operator? ≠ some "$regex" ∧
      (compare op field operand).operator? ≠ some "$exists" := by
  cases op <;> simp [operator?]

private theorem determinedByDocument (filter : Filter) : DeterminedByDocument filter := by
  induction filter with
  | compare op field operand ih =>
    intro other hplain hplain' h
    -- the document shows these three, and they leave one constructor for the other filter
    obtain ⟨hfield, hop, hvalue⟩ := parts_eq hplain hplain' h rfl
    have hne := compare_operator?_ne op field operand
    cases other with
    | compare op' field' operand' =>
      obtain rfl := Option.some.inj hfield
      obtain rfl : op = op' := by cases op <;> cases op' <;> simp_all [operator?]
      have hoperand := operandWithoutAll_eq ih (fun _ => hplain.document)
        (fun _ => hplain'.document) hvalue
      rw [withoutAll, withoutAll, hoperand]
    | regex field' pattern => exact absurd hop hne.1
    | present field' => exact absurd hop hne.2
    | _ => cases hfield
  | regex field pattern =>
    intro other hplain hplain' h
    obtain ⟨hfield, hop, hvalue⟩ := parts_eq hplain hplain' h rfl
    cases other with
    | compare op' field' operand' =>
      exact absurd hop.symm (compare_operator?_ne op' field' operand').1
    | regex field' pattern' =>
      obtain rfl := Option.some.inj hfield
      obtain rfl : pattern = pattern' := by simpa [assigned] using hvalue
      rfl
    | present field' => simp [operator?] at hop
    | _ => cases hfield
  | present field =>
    intro other hplain hplain' h
    obtain ⟨hfield, hop, hvalue⟩ := parts_eq hplain hplain' h rfl
    cases other with
    | compare op' field' operand' =>
      exact absurd hop.symm (compare_operator?_ne op' field' operand').2
    | regex field' pattern' => simp [operator?] at hop
    | present field' =>
      obtain rfl := Option.some.inj hfield
      rfl
    | _ => cases hfield
  | combine op children ih =>
    intro other hplain hplain' h
    have hfield := field?_eq hplain hplain' h
    cases other with
    | combine op' children' =>
      obtain ⟨hop, hdocuments⟩ := single_inj h
      have hchildren := childrenWithoutAll_eq ih (fun _ => hplain.child) (fun _ => hplain'.child)
        (Value.array.inj hdocuments)
      rw [withoutAll, withoutAll, withoutAll_eq_of_operator_eq hop, hchildren]
    | negate child' =>
      have hkey := documentKey_eq h
      cases op <;> simp [documentKey, Connective.operator] at hkey
    | _ => cases hfield
  | negate child ih =>
    intro other hplain hplain' h
    have hfield := field?_eq hplain hplain' h
    cases other with
    | combine op' children' =>
      have hkey := documentKey_eq h
      cases op' <;> simp [documentKey, Connective.operator] at hkey
    | negate child' =>
      have hdocument : child.document = child'.document := by
        simpa using (single_inj h).2
      rw [withoutAll, withoutAll, ih child' hplain.negated hplain'.negated hdocument]
    | _ => cases hfield

/-- Filters whose fields do not begin like operators have the same text as documents exactly when
they are equal up to conjunctions in place of lists. -/
theorem compact_document_eq_iff {filter other : Filter} (hfilter : filter.HasPlainFields)
    (hother : other.HasPlainFields) :
    filter.document.compact = other.document.compact ↔ filter.withoutAll = other.withoutAll := by
  constructor
  · intro h
    have hdocument : filter.document = other.document :=
      Value.eq_of_compact_eq (document_isExact filter) (document_isExact other) h
    exact determinedByDocument filter other hfilter hother hdocument
  · intro h
    rw [← document_withoutAll filter, ← document_withoutAll other, h]

/-- An equation with a document and a comparison are told apart, but a list and a conjunction are
not. -/
theorem compact_document_eq_iff_nested :
    let chain : Filter := .eq "title" (.document (.eq "lang" (.text "en")))
    let comparison : Filter := .ne "title" (.text "en")
    (Filter.all [chain]).HasPlainFields ∧ (Filter.and [chain]).HasPlainFields ∧
      comparison.HasPlainFields ∧
      (Filter.all [chain]).document.compact = (Filter.and [chain]).document.compact ∧
      chain.document.compact ≠ comparison.document.compact := by
  intro chain comparison
  have hall : (Filter.all [chain]).HasPlainFields := by
    simp [HasPlainFields, Everywhere, chain, subfilters, childrenSubfilters, operandSubfilters,
      field?]
  have hand : (Filter.and [chain]).HasPlainFields := by
    simp [HasPlainFields, Everywhere, chain, subfilters, childrenSubfilters, operandSubfilters,
      field?]
  have hchain : chain.HasPlainFields := hall.child List.mem_cons_self
  have hcomparison : comparison.HasPlainFields := by
    simp [HasPlainFields, Everywhere, comparison, subfilters, operandSubfilters, field?]
  refine ⟨hall, hand, hcomparison, (compact_document_eq_iff hall hand).mpr rfl, ?_⟩
  intro h
  have heq := (compact_document_eq_iff hchain hcomparison).mp h
  simp [chain, comparison, withoutAll] at heq

end Filter

end SearchFilter
