import SearchFilter.Filter
/-!
# Filters as trees

Induction over filters, what stands at a path of child indices, and all filters inside a filter.
-/
namespace SearchFilter.Filter

@[induction_eliminator]
theorem inductionOn {motive : Filter → Prop}
    (compare : ∀ op field operand, (∀ inner, operand = .document inner → motive inner) →
      motive (.compare op field operand))
    (regex : ∀ field pattern, motive (.regex field pattern))
    (present : ∀ field, motive (.present field))
    (combine : ∀ op children, (∀ child ∈ children, motive child) → motive (.combine op children))
    (negate : ∀ child, motive child → motive (.negate child)) (filter : Filter) : motive filter :=
  match filter with
  | .compare op field operand =>
    compare op field operand fun inner _ =>
      inductionOn compare regex present combine negate inner
  | .regex field pattern => regex field pattern
  | .present field => present field
  | .combine op children =>
    combine op children fun child _ => inductionOn compare regex present combine negate child
  | .negate child => negate child (inductionOn compare regex present combine negate child)
termination_by sizeOf filter
decreasing_by
  · rename_i hdocument
    simp only [hdocument, Filter.compare.sizeOf_spec, Operand.document.sizeOf_spec]
    omega
  · rename_i hchild
    have hmem := List.sizeOf_lt_of_mem hchild
    simp only [Filter.combine.sizeOf_spec]
    omega
  · simp only [Filter.negate.sizeOf_spec]
    omega

def children : Filter → List Filter
  | combine _ children => children
  | _ => []

/-- The filter at a path of child indices. -/
def at? (filter : Filter) : List Nat → Option Filter
  | [] => some filter
  | i :: path => filter.children[i]?.bind fun child => child.at? path

theorem at?_combine_cons (op : Connective) (children : List Filter) (i : Nat) (path : List Nat) :
    (combine op children).at? (i :: path) = children[i]?.bind fun child => child.at? path := rfl

mutual

/-- A filter and all filters inside it, the ones in operands included, with the filter itself
first. -/
def subfilters : Filter → List Filter
  | compare op field operand => compare op field operand :: operandSubfilters operand
  | regex field pattern => [regex field pattern]
  | present field => [present field]
  | combine op children => combine op children :: childrenSubfilters children
  | negate child => negate child :: subfilters child

def operandSubfilters : Operand → List Filter
  | .null => []
  | .int _ => []
  | .text _ => []
  | .document filter => subfilters filter

def childrenSubfilters : List Filter → List Filter
  | [] => []
  | child :: children => subfilters child ++ childrenSubfilters children

end

theorem mem_childrenSubfilters {children : List Filter} {filter : Filter} :
    filter ∈ childrenSubfilters children ↔ ∃ child ∈ children, filter ∈ child.subfilters := by
  induction children with
  | nil => simp [childrenSubfilters]
  | cons child children ih =>
    rw [childrenSubfilters, List.mem_append, ih]
    simp

theorem mem_operandSubfilters {operand : Operand} {filter : Filter} :
    filter ∈ operandSubfilters operand ↔
      ∃ inner, operand = .document inner ∧ filter ∈ inner.subfilters := by
  cases operand <;> simp [operandSubfilters]

def field? : Filter → Option String
  | compare _ field _ => some field
  | regex field _ => some field
  | present field => some field
  | combine _ _ => none
  | negate _ => none

def pattern? : Filter → Option String
  | regex _ pattern => some pattern
  | _ => none

/-- All filters in a filter have a property, the ones in operands included. -/
def Everywhere (p : Filter → Prop) (filter : Filter) : Prop :=
  ∀ g ∈ filter.subfilters, p g

section Everywhere

variable {p : Filter → Prop}

theorem Everywhere.self {filter : Filter} (h : filter.Everywhere p) : p filter := by
  apply h
  cases filter <;> exact List.mem_cons_self

theorem Everywhere.document {op : Comparison} {field : String} {operand : Operand}
    (h : (compare op field operand).Everywhere p) {inner : Filter}
    (hinner : operand = .document inner) : inner.Everywhere p := by
  intro g hg
  apply h
  exact List.mem_cons_of_mem _ (mem_operandSubfilters.mpr ⟨inner, hinner, hg⟩)

theorem Everywhere.child {op : Connective} {children : List Filter}
    (h : (combine op children).Everywhere p) {child : Filter} (hchild : child ∈ children) :
    child.Everywhere p := by
  intro g hg
  apply h
  exact List.mem_cons_of_mem _ (mem_childrenSubfilters.mpr ⟨child, hchild, hg⟩)

theorem Everywhere.negated {child : Filter} (h : (negate child).Everywhere p) :
    child.Everywhere p := by
  intro g hg
  exact h g (List.mem_cons_of_mem _ hg)

end Everywhere

end SearchFilter.Filter
